import QueryViews.Proofs.Clauses.Visits
import QueryViews.Proofs.Join.Numbering
import QueryViews.Proofs.Pipeline
import QueryViews.Proofs.Scope.Standing

/-! The tokens that a view is made of, at any depth. Building the view touches no others, and
redirects only tokens that some template in it holds. -/

namespace QueryViews

mutual

theorem Segment.touched_of_allTokens {P : TokenId → Prop} {resolve : TokenId → Option Fragment} :
    ∀ {segment : Segment}, (segment.AllTokens fun t => P t.id) →
      ∀ id ∈ segment.touched resolve, P id
  | .token here definition, ⟨self, below⟩, id, touched => by
    unfold Segment.touched at touched
    rcases List.mem_cons.1 touched with rfl | deeper
    · exact self
    · split at deeper
      · exact absurd deeper List.not_mem_nil
      · exact Fragment.touched_of_allTokens below id deeper
  | .nested _, all, id, touched => Fragment.touched_of_allTokens (by exact all) id touched
  | .verbatim _, _, _, touched | .column _ _, _, _, touched | .param _, _, _, touched =>
    absurd touched List.not_mem_nil

/-- An expansion comes across tokens of the fragment only. -/
theorem Fragment.touched_of_allTokens {P : TokenId → Prop} {resolve : TokenId → Option Fragment} :
    ∀ {f : Fragment}, Fragment.AllTokens (fun t => P t.id) f →
      ∀ id ∈ Fragment.touched resolve f, P id
  | [], _, _, touched => absurd touched List.not_mem_nil
  | _ :: _, ⟨first, rest⟩, id, touched => by
    rcases List.mem_append.1 touched with early | late
    · exact Segment.touched_of_allTokens first id early
    · exact Fragment.touched_of_allTokens rest id late

end

mutual

/-- Tokens are replaced or written out, so none is left but those of the replacements. -/
theorem Segment.allTokens_substitute {P : Token → Prop} {resolve : TokenId → Option Fragment}
    (replaced : ∀ id f, resolve id = some f → f.AllTokens P) :
    ∀ segment : Segment, (segment.substitute resolve).AllTokens P
  | .token id definition => by
    unfold Segment.substitute
    cases found : resolve id with
    | some f => exact replaced id f found
    | none => exact Fragment.allTokens_substitute replaced definition
  | .nested inner => Fragment.allTokens_substitute replaced inner
  | .verbatim _ | .column _ _ | .param _ => ⟨trivial, trivial⟩

theorem Fragment.allTokens_substitute {P : Token → Prop} {resolve : TokenId → Option Fragment}
    (replaced : ∀ id f, resolve id = some f → f.AllTokens P) :
    ∀ f : Fragment, (Fragment.substitute resolve f).AllTokens P
  | [] => trivial
  | segment :: rest => by
    rw [Fragment.substitute, Fragment.allTokens_append]
    exact ⟨Segment.allTokens_substitute replaced segment,
      Fragment.allTokens_substitute replaced rest⟩

end

theorem Redirects.Flat.allTokens_expand {r : Redirects} (flat : r.Flat) {P : Token → Prop}
    (f : Fragment) : (r.expand f).AllTokens P := by
  rw [Redirects.expand_of_flat flat]
  refine Fragment.allTokens_substitute (fun id replacement found => ?_) f
  obtain ⟨source, name, rfl⟩ := flat id replacement found
  exact ⟨trivial, trivial⟩

theorem Build.Grows.flat {tables : Alias → Prop} {made : List Alias} {before after : Build}
    (grows : Build.Grows tables made before after) (flat : before.redirects.Flat) :
    after.redirects.Flat := by
  intro id f found
  rcases grows.redirects id f found with kept | ⟨a, -, name, column⟩
  · exact flat id f kept
  · exact ⟨a, name, column⟩

namespace View

/-- Every token that the expressions of the view are made of has the property. -/
def AllTokens (P : Token → Prop) : View → Prop
  | .table text _ template => text.AllTokens P ∧ template.AllTokens P
  | .filter input condition => input.AllTokens P ∧ (Step.filter condition).AllTokens P
  | .project input template => input.AllTokens P ∧ (Step.project template).AllTokens P
  | .group input keys content => input.AllTokens P ∧ (Step.group keys content).AllTokens P
  | .order input items => input.AllTokens P ∧ (Step.order items).AllTokens P
  | .take input count => input.AllTokens P ∧ (Step.take count).AllTokens P
  | .skip input count => input.AllTokens P ∧ (Step.skip count).AllTokens P
  | .bracket input point => input.AllTokens P ∧ (Step.bracket point).AllTokens P
  | .join base extra _ _ condition =>
    base.AllTokens P ∧ extra.AllTokens P ∧ condition.AllTokens P

variable {P : Token → Prop} {v : View}

theorem allTokens_onto {s : Step} :
    (s.onto v).AllTokens P ↔ v.AllTokens P ∧ s.AllTokens P := by
  cases s with
  | filter | project | group | order | take | skip | bracket => exact Iff.rfl

/-- All expressions given to the view. -/
def fragments : View → List Fragment
  | .table text _ template => text :: template.columns.map Column.toFragment
  | .filter input condition => (Step.filter condition).fragments ++ input.fragments
  | .project input template => (Step.project template).fragments ++ input.fragments
  | .group input keys content => (Step.group keys content).fragments ++ input.fragments
  | .order input items => (Step.order items).fragments ++ input.fragments
  | .take input count => (Step.take count).fragments ++ input.fragments
  | .skip input count => (Step.skip count).fragments ++ input.fragments
  | .bracket input point => (Step.bracket point).fragments ++ input.fragments
  | .join base extra _ _ condition => condition :: (base.fragments ++ extra.fragments)

theorem fragments_onto (v : View) (s : Step) :
    (s.onto v).fragments = s.fragments ++ v.fragments := by
  cases s with
  | filter | project | group | order | take | skip | bracket => rfl

theorem allTokens_iff_fragments : v.AllTokens P ↔ ∀ f ∈ v.fragments, f.AllTokens P := by
  induction v using induction_onto with
  | table text id template =>
    rw [fragments, List.forall_mem_cons, List.forall_mem_map]
    exact and_congr_right fun _ => forall₂_congr fun c _ => Fragment.allTokens_toFragment.symm
  | onto s v ih =>
    rw [allTokens_onto, fragments_onto, List.forall_mem_append, ih, and_comm]
    rfl
  | join base extra mode withNull condition ofBase ofExtra =>
    rw [fragments, List.forall_mem_cons, List.forall_mem_append, ← ofBase, ← ofExtra, and_comm]
    exact and_assoc.symm

instance [DecidablePred P] : Decidable (v.AllTokens P) :=
  decidable_of_iff _ allTokens_iff_fragments.symm

theorem AllTokens.mono {Q : Token → Prop} (imp : ∀ t, P t → Q t) (all : v.AllTokens P) :
    v.AllTokens Q :=
  allTokens_iff_fragments.2 fun f given =>
    Fragment.AllTokens.mono imp (allTokens_iff_fragments.1 all f given)

theorem AllTokens.and {Q : Token → Prop} (one : v.AllTokens P) (two : v.AllTokens Q) :
    v.AllTokens fun t => P t ∧ Q t :=
  allTokens_iff_fragments.2 fun f given =>
    (allTokens_iff_fragments.1 one f given).and (allTokens_iff_fragments.1 two f given)

/-- The columns of a view are made of tokens of the view. -/
theorem AllTokens.template (all : v.AllTokens P) : v.template.AllTokens P := by
  induction v using induction_onto with
  | table text id template => exact all.2
  | onto s v ih =>
    obtain ⟨below, ofStep⟩ := allTokens_onto.1 all
    exact ofStep.onto (ih below)
  | join base extra mode withNull condition ofBase ofExtra =>
    intro c inside
    rw [View.template, Template.columns_pair] at inside
    rcases List.mem_append.1 inside with inBase | inExtra
    · exact ofBase all.1 c inBase
    · obtain ⟨d, listed, rfl⟩ := Template.mem_columns_widen.1 inExtra
      exact ofExtra all.2.1 d listed

theorem AllTokens.of_scope {own : TokenId → Prop} (all : v.AllTokens fun t => own t.id)
    {id : TokenId} (held : v.scope.contains id = true) : own id := by
  obtain ⟨c, inside, rfl⟩ := Template.contains_scope.1 held
  exact (all.template c inside).self

/-- A token that a view offers is made of tokens of the view, if its definition is the one it has
there. -/
theorem AllTokens.token {definitions : TokenId → Fragment}
    (all : v.AllTokens fun t => t.definition = definitions t.id ∧ P t) {t : Token}
    (defined : t.definition = definitions t.id) (held : v.scope.contains t.id = true) :
    t.AllTokens P := by
  obtain ⟨c, inside, same⟩ := Template.contains_scope.1 held
  have ofColumn := all.template c inside
  obtain ⟨id, definition⟩ := t
  obtain rfl : c.token.id = id := same
  obtain rfl : definition = c.token.definition := defined.trans ofColumn.self.1.symm
  exact ofColumn.mono fun u both => both.2

theorem contains_of_mem_joinNeeds {side : View} {condition : Fragment} {used : TokenSet} {t : Token}
    (needed : t ∈ (side.joinNeeds condition used).toList) : side.scope.contains t.id = true := by
  rcases AscendingSet.mem_union needed with fromUsed | fromCondition
  · exact AscendingSet.contains_of_mem_narrow fromUsed
  · exact AscendingSet.contains_of_mem_narrow fromCondition

end View

namespace Build

/-- What is redirected from one build to a later one are tokens of these identities. -/
def Redirected (own : TokenId → Prop) (before after : Build) : Prop :=
  ∀ id, (after.redirects.lookup id).isSome = true →
    (before.redirects.lookup id).isSome = true ∨ own id

namespace Redirected
variable {own : TokenId → Prop} {first second third : Build}

theorem trans (early : Redirected own first second) (late : Redirected own second third) :
    Redirected own first third := by
  intro id redirected
  rcases late id redirected with before | new
  · exact early id before
  · exact .inr new

theorem lookup_eq_none (redirected : Redirected own first second)
    (fresh : first.redirects = {}) {id : TokenId} (foreign : ¬ own id) :
    second.redirects.lookup id = none := by
  cases found : second.redirects.lookup id with
  | none => rfl
  | some f =>
    rcases redirected id (by rw [found]; rfl) with before | new
    · rw [fresh] at before
      exact absurd before Bool.false_ne_true
    · exact absurd new foreign

end Redirected

/-- All but these identities stand in the later build for what they stand for in the first one. -/
def Keeps (own : TokenId → Prop) (before after : Build) : Prop :=
  ∀ id, ¬ own id → after.redirects.lookup id = before.redirects.lookup id

namespace Keeps
variable {own : TokenId → Prop} {first second third : Build}

theorem trans (early : Keeps own first second) (late : Keeps own second third) :
    Keeps own first third := fun id foreign => (late id foreign).trans (early id foreign)

theorem mono {many : TokenId → Prop} (keeps : Keeps own first second)
    (within : ∀ id, own id → many id) : Keeps many first second :=
  fun id foreign => keeps id fun inside => foreign (within id inside)

theorem redirected (keeps : Keeps own first second) : Redirected own first second := by
  intro id redirected
  by_cases inside : own id
  · exact .inr inside
  · exact .inl (keeps id inside ▸ redirected)

end Keeps

theorem keeps_bracketIf {own : TokenId → Prop} {needs : TokenSet}
    (held : ∀ t ∈ needs.toList, own t.id) (b : Build) (applies : Bool) (body : Body) :
    Keeps own b (b.bracketIf applies body needs).2 := by
  intro id foreign
  cases applies with
  | false => rfl
  | true =>
    exact lookup_bracketed_of_unselected body fun t needed same =>
      foreign (same ▸ held t needed)

theorem redirected_bracketIf {own : TokenId → Prop} {needs : TokenSet}
    (held : ∀ t ∈ needs.toList, own t.id) (b : Build) (applies : Bool) (body : Body) :
    Redirected own b (b.bracketIf applies body needs).2 :=
  (keeps_bracketIf held b applies body).redirected

end Build

namespace View

theorem keeps_closing {v : View} {needs : TokenSet}
    (offered : ∀ t ∈ needs.toList, v.scope.contains t.id = true) (b : Build) (applies : Bool)
    (body : Body) : Build.Keeps (· ∈ v.past) b (b.bracketIf applies body needs).2 :=
  Build.keeps_bracketIf (fun t needed => mem_past_of_contains (offered t needed)) b applies body

/-- Building a view redirects only tokens that it holds or has held below. -/
theorem keeps_past (v : View) (used : TokenSet) (observed : Bool) (b : Build) :
    Build.Keeps (· ∈ v.past) b ((v.body used observed).run b).2 := by
  induction v, used, observed, b using visits_induction with
  | table => exact fun id _ => rfl
  | onto s v used observed b ih =>
    simp only [run_body_onto, Build.run_makeRoom]
    have offered : ∀ t ∈ (s.needs observed v.scope used).toList, v.scope.contains t.id = true :=
      fun t needed => AscendingSet.contains_of_mem_narrow needed
    refine (ih.trans ?_).mono fun id => mem_past_onto s
    exact keeps_closing offered (Build.noted _ _ _) _ _
  | baseOnly base extra mode withNull condition used observed b drops ih =>
    rw [run_body_of_dropsExtra b drops]
    exact ih.mono fun id => List.mem_append_left _
  | extraOnly base extra mode withNull condition used observed b keeps drops ih =>
    rw [run_body_of_dropsBase b keeps drops]
    exact ih.mono fun id => List.mem_append_right _
  | both base extra mode withNull condition used observed b joins ofBase ofExtra =>
    rw [run_body_of_joins b joins]
    simp only [run_sides]
    have inBase : ∀ id ∈ base.past, id ∈ base.past ++ extra.past := fun id =>
      List.mem_append_left extra.past
    have inExtra : ∀ id ∈ extra.past, id ∈ base.past ++ extra.past := fun id =>
      List.mem_append_right base.past
    have closing : ∀ side : View, ∀ (b : Build) (applies : Bool) (body : Body),
        Build.Keeps (· ∈ side.past) b
          (b.bracketIf applies body (side.joinNeeds condition used)).2 := fun side =>
      keeps_closing fun t => contains_of_mem_joinNeeds
    exact (ofBase.mono inBase).trans ((ofExtra.mono inExtra).trans
      (((closing base _ _ _).mono inBase).trans ((closing extra _ _ _).mono inExtra)))

/-- What a view holds or has held is made of its tokens. -/
theorem AllTokens.of_past {own : TokenId → Prop} {v : View} (all : v.AllTokens fun t => own t.id)
    {id : TokenId} (earlier : id ∈ v.past) : own id := by
  induction v using induction_onto with
  | table text source template =>
    obtain ⟨c, inside, rfl⟩ := List.mem_map.1 earlier
    exact (all.2 c inside).self
  | onto s v ih =>
    obtain ⟨below, ofStep⟩ := allTokens_onto.1 all
    cases s with
    | project template =>
      rcases List.mem_append.1 earlier with held | before
      · obtain ⟨c, inside, rfl⟩ := List.mem_map.1 held
        exact (ofStep.project c inside).self
      · exact ih below before
    | group keys content =>
      rcases List.mem_append.1 earlier with held | before
      · obtain ⟨c, inside, rfl⟩ := List.mem_map.1 held
        obtain ⟨ofKeys, ofContent⟩ := ofStep.group
        exact ((List.mem_append.1 inside).elim (ofKeys c) (ofContent c)).self
      · exact ih below before
    | filter | order | take | skip | bracket => exact ih below earlier
  | join base extra mode withNull condition ofBase ofExtra =>
    exact (List.mem_append.1 earlier).elim (ofBase all.1) (ofExtra all.2.1)

/-- Whatever is used of a view, building it redirects tokens of the view only. -/
theorem redirected_body {own : TokenId → Prop} {v : View} (all : v.AllTokens fun t => own t.id)
    (used : TokenSet) (observed : Bool) (b : Build) :
    Build.Redirected own b ((v.body used observed).run b).2 :=
  ((v.keeps_past used observed b).mono fun _ => all.of_past).redirected

end View

/-- Every token of the expressions that stand in the body has the property. -/
def Body.AllTokens (P : Token → Prop) (b : Body) : Prop :=
  ∀ f ∈ b.fragments ++ b.texts, f.AllTokens P

/-- A step leaves the expressions of a body and adds its own, but for keys that it replaces. -/
theorem Step.of_mem_extend {s : Step} {observed : Bool} {b : Body} {f : Fragment}
    (member : f ∈ (s.extend observed b).fragments) :
    f ∈ b.fragments ∨ f ∈ s.written observed := by
  cases s with
  | group keys content =>
    simp only [extend, Body.groupBy, Body.fragments, written] at member ⊢
    grind
  | filter | order | take | skip | project | bracket =>
    refine (Step.mem_fragments_extend ?_ f).1 member
    trivial

/-- A join brings its condition to the expressions of both sides. -/
theorem Body.of_mem_join {b x : Body} {kind : JoinKind} {condition f : Fragment}
    (member : f ∈ (b.join x kind condition).fragments ++ (b.join x kind condition).texts) :
    f = condition ∨ f ∈ b.fragments ++ b.texts ∨ f ∈ x.fragments ++ x.texts := by
  simp only [Body.join, addJoin, fragments, texts, sources] at member ⊢
  grind

namespace Body.AllTokens
variable {P : Token → Prop} {b x : Body}

theorem bracketIf (all : b.AllTokens P) (build : Build) (applies : Bool) (needs : TokenSet) :
    (build.bracketIf applies b needs).1.AllTokens P := by
  cases applies with
  | false => exact all
  | true =>
    intro f member
    have empty : f ∈ [] ++ [[]] := member
    obtain rfl := List.mem_singleton.1 empty
    trivial

theorem extend (all : b.AllTokens P) {s : Step} (ofStep : s.AllTokens P) (observed : Bool) :
    (s.extend observed b).AllTokens P := by
  intro f member
  rcases List.mem_append.1 member with clause | text
  · rcases Step.of_mem_extend clause with before | added
    · exact all f (List.mem_append_left _ before)
    · exact ofStep f (Step.mem_fragments_of_written observed added)
  · rw [Body.texts, Body.sources, Step.source_extend, Step.joins_extend] at text
    exact all f (List.mem_append_right _ text)

theorem join (ofBase : b.AllTokens P) (ofExtra : x.AllTokens P) {condition : Fragment}
    (ofCondition : condition.AllTokens P) (kind : JoinKind) :
    (b.join x kind condition).AllTokens P := by
  intro f member
  rcases of_mem_join member with rfl | inBase | inExtra
  · exact ofCondition
  · exact ofBase f inBase
  · exact ofExtra f inExtra

end Body.AllTokens

theorem Build.touchedIf_of_allTokens {own : TokenId → Prop} {body : Body} {needs : TokenSet}
    (ofBody : body.AllTokens fun t => own t.id)
    (ofNeeds : ∀ t ∈ needs.toList, t.AllTokens fun u => own u.id) (b : Build) (applies : Bool) :
    ∀ id ∈ b.touchedIf applies body needs, own id := by
  intro id touched
  cases applies with
  | false => exact absurd touched List.not_mem_nil
  | true =>
    obtain ⟨f, member, inside⟩ := List.mem_flatMap.1 touched
    refine Fragment.touched_of_allTokens ?_ id inside
    rcases List.mem_append.1 member with selected | standing
    · obtain ⟨t, listed, rfl⟩ := List.mem_map.1 selected
      exact Fragment.allTokens_toFragment.2 (ofNeeds t (Token.mem_distinct listed))
    · exact ofBody f standing

namespace View
variable {P : Token → Prop}

theorem allTokens_body {v : View} (all : v.AllTokens P) :
    ∀ used observed (b : Build), b.redirects.Flat → ((v.body used observed).run b).1.AllTokens P := by
  induction v using induction_onto with
  | table text id template =>
    intro used observed b flat f member
    have only : f ∈ [] ++ [b.redirects.expand text] := member
    -- a table's text is written out here and now, so none of its tokens is left
    obtain rfl := List.mem_singleton.1 only
    exact flat.allTokens_expand text
  | onto s v ih =>
    intro used observed b flat
    obtain ⟨below, ofStep⟩ := allTokens_onto.1 all
    simp only [run_body_onto, Build.run_makeRoom]
    exact ((ih below _ _ b flat).bracketIf _ _ _).extend ofStep observed
  | join base extra mode withNull condition ofBase ofExtra =>
    intro used observed b flat
    obtain ⟨allBase, allExtra, ofCondition⟩ := all
    rw [body_join]
    by_cases withoutExtra : extra.dropsExtra mode used
    · rw [if_pos withoutExtra]
      exact ofBase allBase _ _ b flat
    · rw [if_neg withoutExtra]
      by_cases withoutBase : base.dropsBase mode withNull observed used
      · rw [if_pos withoutBase]
        exact ofExtra allExtra _ _ b flat
      · rw [if_neg withoutBase]
        let both := (base.sides extra mode condition used observed).run b
        show (both.1.1.join both.1.2 mode.kind condition).AllTokens P
        simp only [both, run_sides]
        have between := (base.grows_body (base.joinNeeds condition used) observed b).flat flat
        have first := (ofBase allBase (base.joinNeeds condition used) observed b flat)
        have second := ofExtra allExtra (extra.joinNeeds condition used) false _ between
        exact (first.bracketIf _ _ _).join (second.bracketIf _ _ _) ofCondition mode.kind

theorem allTokens_joinNeeds {side : View} {condition : Fragment} {used : TokenSet}
    (ofUsed : ∀ t ∈ used.toList, t.AllTokens P) (ofCondition : condition.AllTokens P) :
    ∀ t ∈ (side.joinNeeds condition used).toList, t.AllTokens P := by
  intro t needed
  have ofRead : ∀ u ∈ (AscendingSet.ofList condition.tokens).toList, u.AllTokens P :=
    fun u inside => Fragment.allTokens_iff_tokens.1 ofCondition u (AscendingSet.mem_ofList inside)
  rcases AscendingSet.mem_union needed with fromUsed | fromCondition
  · exact (AscendingSet.mem_narrow ofUsed t fromUsed).1
  · exact (AscendingSet.mem_narrow ofRead t fromCondition).1

/-- Building a view for tokens that are made of its own touches no others. -/
theorem touched_of_allTokens {own : TokenId → Prop} {v : View}
    (all : v.AllTokens fun t => own t.id) :
    ∀ used observed (b : Build), b.redirects.Flat →
      (∀ t ∈ used.toList, t.AllTokens fun u => own u.id) →
      ∀ id ∈ v.touched used observed b, own id := by
  induction v using induction_onto with
  | table text id template =>
    intro used observed b _ _
    exact Fragment.touched_of_allTokens all.1
  | onto s v ih =>
    intro used observed b flat ofUsed id touched
    obtain ⟨below, ofStep⟩ := allTokens_onto.1 all
    have ofNeeds : ∀ t ∈ (s.needs observed v.scope used).toList, t.AllTokens fun u => own u.id :=
      fun t needed => (ofStep.needs observed ofUsed v.scope t needed).1
    rw [touched_onto] at touched
    rcases List.mem_append.1 touched with early | late
    · exact ih below _ _ b flat ofNeeds id early
    · exact Build.touchedIf_of_allTokens (allTokens_body below _ _ b flat) ofNeeds _ _ id late
  | join base extra mode withNull condition ofBase ofExtra =>
    intro used observed b flat ofUsed id touched
    obtain ⟨allBase, allExtra, ofCondition⟩ := all
    have narrowed : ∀ side : View, ∀ t ∈ (used.narrow side.scope).toList,
        t.AllTokens fun u => own u.id :=
      fun side t needed => (AscendingSet.mem_narrow ofUsed t needed).1
    have baseNeeds : ∀ t ∈ (base.joinNeeds condition used).toList, t.AllTokens fun u => own u.id :=
      allTokens_joinNeeds ofUsed ofCondition
    have extraNeeds : ∀ t ∈ (extra.joinNeeds condition used).toList,
        t.AllTokens fun u => own u.id := allTokens_joinNeeds ofUsed ofCondition
    simp only [View.touched] at touched
    by_cases withoutExtra : extra.dropsExtra mode used
    · rw [if_pos withoutExtra] at touched
      exact ofBase allBase _ _ b flat (narrowed base) id touched
    · rw [if_neg withoutExtra] at touched
      by_cases withoutBase : base.dropsBase mode withNull observed used
      · rw [if_pos withoutBase] at touched
        exact ofExtra allExtra _ _ b flat (narrowed extra) id touched
      · rw [if_neg withoutBase] at touched
        have between := (base.grows_body (base.joinNeeds condition used) observed b).flat flat
        rcases List.mem_append.1 touched with forBase | rest
        · exact ofBase allBase _ _ b flat baseNeeds id forBase
        rcases List.mem_append.1 rest with forExtra | closing
        · exact ofExtra allExtra _ _ _ between extraNeeds id forExtra
        rcases List.mem_append.1 closing with first | second
        · exact Build.touchedIf_of_allTokens (allTokens_body allBase _ _ b flat) baseNeeds _ _ id
            first
        · exact Build.touchedIf_of_allTokens (allTokens_body allExtra _ _ _ between) extraNeeds _ _
            id second

end View
end QueryViews
