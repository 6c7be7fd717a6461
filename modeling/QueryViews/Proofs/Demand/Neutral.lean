import QueryViews.Proofs.Join.Asked
import QueryViews.Proofs.Scope.JoinFree

/-! Steps that make no difference wherever they are put. Such a step asks its input for the tokens
that it is asked for itself, as those are in scope by then, and leaves the body of its input as it
is. What is decided at the new bracket point may be on record, and nothing else is different. -/

namespace QueryViews

namespace View

/-- A view with a hole at some point below its steps. -/
inductive Context where
  | here
  | onto (s : Step) (inner : Context)
  | inBase (inner : Context) (extra : View) (mode : JoinMode) (withNull : Bool)
    (condition : Fragment)
  | inExtra (base : View) (inner : Context) (mode : JoinMode) (withNull : Bool)
    (condition : Fragment)

namespace Context

/-- The view in which the hole is filled. -/
def fill (v : View) : Context → View
  | .here => v
  | .onto s inner => s.onto (inner.fill v)
  | .inBase inner extra mode withNull condition =>
    .join (inner.fill v) extra mode withNull condition
  | .inExtra base inner mode withNull condition =>
    .join base (inner.fill v) mode withNull condition

/-- What the hole is asked for on the walk down, if the walk comes there; it does not if a lazy
join leaves out the side with the hole. -/
def reached (v : View) : Context → TokenSet → Bool → Build → Option Visit
  | .here => fun used observed b => some ⟨v, used, observed, b⟩
  | .onto s inner => fun used observed b =>
    inner.reached v (s.needs observed (inner.fill v).scope used) (s.observes observed) b
  | .inBase inner extra mode withNull condition => fun used observed b =>
    if extra.dropsExtra mode used then inner.reached v (used.narrow (inner.fill v).scope) observed b
    else if (inner.fill v).dropsBase mode withNull observed used then none
    else inner.reached v ((inner.fill v).joinNeeds condition used) observed b
  | .inExtra base inner mode withNull condition => fun used observed b =>
    if (inner.fill v).dropsExtra mode used then none
    else if base.dropsBase mode withNull observed used then
      inner.reached v (used.narrow (inner.fill v).scope) observed b
    else
      let ofBase := (base.body (base.joinNeeds condition used) observed).run b
      inner.reached v ((inner.fill v).joinNeeds condition used) false ofBase.2

end Context
end View

/-- Where it is reached, a step on the view is a bracket point that does not apply to the body it
meets, or a projection on the tokens that the view holds anyway, in whatever shape. -/
def Step.Neutral (v : View) (reached : Option Visit) : Step → Prop
  | .bracket point => ∀ visit ∈ reached, point.applies
      ((v.body (visit.used.narrow v.scope) visit.observed).run visit.build).1.state = false
  | .project template => template.scope = v.scope
  | .filter _ | .group _ _ | .order _ | .take _ | .skip _ => False

theorem Scope.eq_of_contains {one two : Scope}
    (same : ∀ id, one.contains id = true ↔ two.contains id = true) : one = two := by
  apply AscendingSet.ext
  apply AscendingSet.eq_of_ascending one.ascending two.ascending
  have member : ∀ {s : Scope} {id : TokenId}, id ∈ s.toList ↔ s.contains id = true := by
    intro s id
    constructor
    · exact fun inside => AscendingSet.containsRank_iff.2 ⟨id, inside, rfl⟩
    · intro held
      obtain ⟨other, inside, equal⟩ := AscendingSet.containsRank_iff.1 held
      exact TokenId.eq_of_rank equal ▸ inside
  exact fun id => member.trans ((same id).trans member.symm)

namespace View
variable {v w : View}

theorem scope_onto (same : w.scope = v.scope) (s : Step) : (s.onto w).scope = (s.onto v).scope := by
  cases s with
  | project | group => rfl
  | filter | order | take | skip | bracket => exact same

theorem scope_join {base base' extra extra' : View} (ofBase : base'.scope = base.scope)
    (ofExtra : extra'.scope = extra.scope) (mode : JoinMode) (withNull : Bool)
    (condition : Fragment) :
    (View.join base' extra' mode withNull condition).scope =
      (View.join base extra mode withNull condition).scope :=
  Scope.eq_of_contains fun id => by
    rw [contains_scope_join, contains_scope_join, ofBase, ofExtra]

theorem scope_of_neutral {s : Step} {reached : Option Visit} (neutral : s.Neutral v reached) :
    (s.onto v).scope = v.scope := by
  cases s with
  | bracket => rfl
  | project template => exact neutral
  | filter | group | order | take | skip => exact neutral.elim

/-- A view offers as much as before if what is in the hole does. -/
theorem Context.scope_fill (same : w.scope = v.scope) (c : Context) :
    (c.fill w).scope = (c.fill v).scope := by
  induction c with
  | here => exact same
  | onto s inner ih => exact scope_onto ih s
  | inBase inner extra mode withNull condition ih => exact scope_join ih rfl mode withNull condition
  | inExtra base inner mode withNull condition ih => exact scope_join rfl ih mode withNull condition

end View

namespace Build

/-- The same body was built, and the builds have the same redirects and numbers. -/
def Alike (one two : Body × Build) : Prop := two.1 = one.1 ∧ one.2.Shadowed {} two.2

theorem Meeting.alike {touched : List TokenId} {one two : Body × Build}
    (meeting : Meeting {} touched one two) : Alike one two := by
  rcases meeting with ⟨-, same, shadowed⟩ | ⟨⟨id, -, redirected⟩, -⟩
  · exact ⟨same, shadowed⟩
  · exact absurd redirected nofun

theorem Alike.bracketIf {one two : Body × Build} (alike : Alike one two) (applies : Bool)
    (needs : TokenSet) : Alike (one.2.bracketIf applies one.1 needs)
      (two.2.bracketIf applies two.1 needs) := by
  rw [alike.1]
  exact (alike.2.bracketIf applies one.1 needs).alike

theorem Shadowed.statement_eq {own joint : Build} (shadowed : own.Shadowed {} joint) (body : Body)
    (targets : List Token) : joint.statement body targets = own.statement body targets :=
  statement_of_untouched shadowed.settings shadowed.redirects fun _ _ => rfl

end Build

namespace View
open Build (Alike)

theorem alike_body (v : View) (used : TokenSet) (observed : Bool) {own joint : Build}
    (shadowed : own.Shadowed {} joint) :
    Alike ((v.body used observed).run own) ((v.body used observed).run joint) :=
  (v.meeting_body used observed own joint shadowed).alike

/-- Above inputs that offer the same and are built alike, a step makes no difference. -/
theorem alike_onto {v w : View} (same : w.scope = v.scope) (s : Step) {used : TokenSet}
    {observed : Bool} {own joint : Build}
    (below : Alike ((v.body (s.needs observed v.scope used) (s.observes observed)).run own)
      ((w.body (s.needs observed v.scope used) (s.observes observed)).run joint)) :
    Alike (((s.onto v).body used observed).run own)
      (((s.onto w).body used observed).run joint) := by
  rw [run_body_onto, run_body_onto, same]
  simp only [Build.run_makeRoom]
  obtain ⟨bodies, builds⟩ := below
  rw [bodies]
  have noted := builds.noted s.label s.label
    ((v.body (s.needs observed v.scope used) (s.observes observed)).run own).1.state
    ((v.body (s.needs observed v.scope used) (s.observes observed)).run own).1.state
  obtain ⟨room, after⟩ := (noted.bracketIf (s.brackets observed _) _ _).alike
  exact ⟨congrArg (s.extend observed) room, after⟩

section Join
variable {base base' extra extra' : View} {mode : JoinMode} {withNull : Bool}
  {condition : Fragment} {used : TokenSet} {observed : Bool} {own joint : Build}

theorem dropsExtra_congr (same : extra'.scope = extra.scope) :
    extra'.dropsExtra mode used ↔ extra.dropsExtra mode used := by
  rw [dropsExtra, dropsExtra, same]

theorem dropsBase_congr (same : base'.scope = base.scope) :
    base'.dropsBase mode withNull observed used ↔ base.dropsBase mode withNull observed used := by
  rw [dropsBase, dropsBase, same]

theorem joinNeeds_congr (same : base'.scope = base.scope) :
    base'.joinNeeds condition used = base.joinNeeds condition used := by
  rw [joinNeeds, joinNeeds, same]

/-- Sides that are built alike are joined alike. -/
theorem alike_sides (sameBase : base'.scope = base.scope) (sameExtra : extra'.scope = extra.scope)
    (joins : Joins base extra mode withNull used observed)
    (first : Alike ((base.body (base.joinNeeds condition used) observed).run own)
      ((base'.body (base.joinNeeds condition used) observed).run joint))
    (second : Alike
      ((extra.body (extra.joinNeeds condition used) false).run
        ((base.body (base.joinNeeds condition used) observed).run own).2)
      ((extra'.body (extra.joinNeeds condition used) false).run
        ((base'.body (base.joinNeeds condition used) observed).run joint).2)) :
    Alike (((View.join base extra mode withNull condition).body used observed).run own)
      (((View.join base' extra' mode withNull condition).body used observed).run joint) := by
  have joins' : Joins base' extra' mode withNull used observed :=
    ⟨mt (dropsExtra_congr sameExtra).1 joins.1, mt (dropsBase_congr sameBase).1 joins.2⟩
  rw [run_body_of_joins own joins, run_body_of_joins joint joins']
  simp only [run_sides, joinNeeds_congr sameBase, joinNeeds_congr sameExtra]
  rw [first.1]
  obtain ⟨closed, builds⟩ := (second.2.bracketIf _ _ (base.joinNeeds condition used)).alike
  rw [closed, builds.settings, second.1]
  obtain ⟨last, after⟩ := (builds.bracketIf _ _ (extra.joinNeeds condition used)).alike
  exact ⟨congrArg (Body.join _ · mode.kind condition) last, after⟩

end Join

/-- A neutral step passes on what it is asked for, and leaves the body as it is. -/
theorem run_body_of_neutral {v : View} {s : Step} {used : TokenSet} {observed : Bool} {b : Build}
    (neutral : s.Neutral v (some ⟨s.onto v, used, observed, b⟩))
    (offered : ∀ t ∈ used.toList, v.scope.contains t.id = true) :
    ((s.onto v).body used observed).run b =
      let built := (v.body used observed).run b
      (built.1, built.2.noted s.label built.1.state) := by
  have narrowed : used.narrow v.scope = used := AscendingSet.narrow_eq_self offered
  rw [run_body_onto]
  simp only [Build.run_makeRoom]
  cases s with
  | bracket point =>
    have needs : (Step.bracket point).needs observed v.scope used = used := narrowed
    have clear : (Step.bracket point).brackets observed ((v.body used observed).run b).1.state =
        false := by
      have meets := neutral _ rfl
      rw [narrowed] at meets
      exact meets
    rw [needs, Step.observes, clear]
    rfl
  | project template =>
    have needs : (Step.project template).needs observed v.scope used = used := narrowed
    rw [needs]
    rfl
  | filter | group | order | take | skip => exact neutral.elim

/-- Wherever a neutral step is put, the body is built as it is without it. -/
theorem Context.alike_fill {v : View} {s : Step} (c : Context) {used : TokenSet} {observed : Bool}
    {own joint : Build} (shadowed : own.Shadowed {} joint)
    (offered : ∀ t ∈ used.toList, (c.fill v).scope.contains t.id = true)
    (neutral : s.Neutral v (c.reached (s.onto v) used observed joint)) :
    Alike (((c.fill v).body used observed).run own)
      (((c.fill (s.onto v)).body used observed).run joint) := by
  have same : (s.onto v).scope = v.scope := scope_of_neutral neutral
  induction c generalizing used observed own joint with
  | here =>
    have below := v.alike_body used observed shadowed
    rw [fill, fill, run_body_of_neutral neutral offered]
    exact ⟨below.1, below.2.settings, below.2.supply, below.2.redirects⟩
  | onto t inner ih =>
    have scopes := inner.scope_fill same
    simp only [reached, scopes] at neutral
    exact alike_onto scopes t
      (ih shadowed (fun u needed => AscendingSet.contains_of_mem_narrow needed) neutral)
  | inBase inner extra mode withNull condition ih =>
    have scopes := inner.scope_fill same
    have narrowed : ∀ u ∈ (used.narrow (inner.fill v).scope).toList,
        (inner.fill v).scope.contains u.id = true :=
      fun u needed => AscendingSet.contains_of_mem_narrow needed
    simp only [reached] at neutral
    by_cases withoutExtra : extra.dropsExtra mode used
    · rw [if_pos withoutExtra, scopes] at neutral
      rw [fill, fill, run_body_of_dropsExtra _ withoutExtra, run_body_of_dropsExtra _ withoutExtra,
        scopes]
      exact ih shadowed narrowed neutral
    · rw [if_neg withoutExtra] at neutral
      by_cases withoutBase : (inner.fill v).dropsBase mode withNull observed used
      · have also := (dropsBase_congr scopes).2 withoutBase
        rw [fill, fill, run_body_of_dropsBase _ withoutExtra withoutBase,
          run_body_of_dropsBase _ withoutExtra also]
        exact extra.alike_body _ observed shadowed
      · rw [if_neg (mt (dropsBase_congr scopes).1 withoutBase), joinNeeds_congr scopes] at neutral
        have first := ih shadowed (fun u needed => contains_of_mem_joinNeeds needed) neutral
        exact alike_sides scopes rfl ⟨withoutExtra, withoutBase⟩ first
          (extra.alike_body _ false first.2)
  | inExtra base inner mode withNull condition ih =>
    have scopes := inner.scope_fill same
    have narrowed : ∀ u ∈ (used.narrow (inner.fill v).scope).toList,
        (inner.fill v).scope.contains u.id = true :=
      fun u needed => AscendingSet.contains_of_mem_narrow needed
    simp only [reached] at neutral
    by_cases withoutExtra : (inner.fill v).dropsExtra mode used
    · have also := (dropsExtra_congr scopes).2 withoutExtra
      rw [fill, fill, run_body_of_dropsExtra _ withoutExtra, run_body_of_dropsExtra _ also]
      exact base.alike_body _ observed shadowed
    · have kept := mt (dropsExtra_congr scopes).1 withoutExtra
      rw [if_neg kept] at neutral
      by_cases withoutBase : base.dropsBase mode withNull observed used
      · rw [if_pos withoutBase, scopes] at neutral
        rw [fill, fill, run_body_of_dropsBase _ withoutExtra withoutBase,
          run_body_of_dropsBase _ kept withoutBase, scopes]
        exact ih shadowed narrowed neutral
      · rw [if_neg withoutBase, joinNeeds_congr scopes] at neutral
        have first := base.alike_body (base.joinNeeds condition used) observed shadowed
        exact alike_sides rfl scopes ⟨withoutExtra, withoutBase⟩ first
          (ih first.2 (fun u needed => contains_of_mem_joinNeeds needed) neutral)

end View

/-- The query without the record of its bracket points. -/
def Query.bare (q : Query) : Query := { q with decisions := [] }

theorem Build.Alike.bare_write {one two : Body × Build} (alike : Build.Alike one two)
    (template : Template) (style : Style) :
    ((Plan.ofBody two.2 two.1 template).write style).bare =
      ((Plan.ofBody one.2 one.1 template).write style).bare := by
  have same := alike.2.statement_eq one.1 template.tokens
  simp only [Plan.ofBody, alike.1, same]
  rfl

namespace View

theorem alike_countedBody {v w : View} {own joint : Build}
    (alike : Build.Alike ((v.body .empty false).run own) ((w.body .empty false).run joint)) :
    Build.Alike (v.countedBody.run own) (w.countedBody.run joint) := by
  have state : ((w.body .empty false).run joint).1.state =
      ((v.body .empty false).run own).1.state := congrArg Body.state alike.1
  rw [run_countedBody, run_countedBody]
  simp only [state]
  exact alike.bracketIf (((v.body .empty false).run own).1.state.meets .aggregate) .empty

end View

/-- A neutral step makes no difference to the queries for a view, wherever it is put in the view
and whichever join policy there is. The rows have to keep their shape; their number does not
depend on it. -/
theorem Compiler.compile_fill_neutral (c : Compiler) (context : View.Context) (v : View) (s : Step)
    (supply : Supply) :
    let start : Build := { settings := c.settings, supply }
    let plain := context.fill v
    let changed := context.fill (s.onto v)
    (s.Neutral v (context.reached (s.onto v) changed.template.tokenSet true start) →
      changed.template = plain.template →
        ((c.compile changed).run supply).1.bare = ((c.compile plain).run supply).1.bare ∧
          ((c.compile changed).run supply).2 = ((c.compile plain).run supply).2) ∧
    (s.Neutral v (context.reached (s.onto v) .empty false start) →
      ((c.compileCount changed).run supply).1.bare = ((c.compileCount plain).run supply).1.bare ∧
        ((c.compileCount changed).run supply).2 = ((c.compileCount plain).run supply).2) := by
  intro start plain changed
  have shadowed : start.Shadowed {} start :=
    { settings := rfl
      supply := rfl
      redirects :=
        { lookup := fun id => rfl
          apart := fun id none => nomatch none
          flatOwn := Redirects.flat_empty
          flatForeign := Redirects.flat_empty } }
  constructor
  · intro neutral shape
    have built : Build.Alike ((plain.body plain.template.tokenSet true).run start)
        ((changed.body changed.template.tokenSet true).run start) := by
      rw [shape] at neutral ⊢
      exact context.alike_fill shadowed
        (fun t listed => Template.contains_of_mem_tokenSet listed) neutral
    have written := built.bare_write plain.template c.style
    refine ⟨?rows, built.2.supply⟩
    case rows =>
      refine Eq.trans ?_ written
      rw [← shape]
      rfl
  · intro neutral
    have built := View.alike_countedBody
      (context.alike_fill shadowed (fun t none => absurd none List.not_mem_nil) neutral)
    -- the counting column takes its number after everything else
    let counting (last : Supply) : Template :=
      let counter : Token := ⟨⟨last.tokens⟩, Fragment.verbatim "count(*)"⟩
      .column (Column.format { token := counter, nullable := false } Format.integer)
    have written := built.bare_write (counting (plain.countedBody.run start).2.supply) c.style
    refine ⟨?count, ?supply⟩
    case count =>
      refine Eq.trans ?_ written
      rw [← built.2.supply]
      rfl
    case supply =>
      exact congrArg (fun last : Supply => last.takeToken.2) built.2.supply

namespace View

/-- Owners with their pets, as the pets come in. -/
def withOwners : Context :=
  .onto (.project (.ofTokens [("id", ownerId), ("owner", petOwner)]))
    (.inExtra owners .here .left true ownedBy)

def neverBracket : Step := .bracket { label := some "never", applies := ClauseSet.order }

def ownerTwice : Step :=
  .project (.list [.column { token := petOwner, nullable := false },
    .column { token := petOwner, nullable := true }])

theorem compile_fill_neutral_pets : ∀ s ∈ [neverBracket, ownerTwice],
    let c : Compiler := {}
    (((c.compile (withOwners.fill (s.onto pets))).run ⟨2, 2, 0⟩).1.bare =
        ((c.compile (withOwners.fill pets)).run ⟨2, 2, 0⟩).1.bare) ∧
      ((c.compileCount (withOwners.fill (s.onto pets))).run ⟨2, 2, 0⟩).1.bare =
        ((c.compileCount (withOwners.fill pets)).run ⟨2, 2, 0⟩).1.bare := by
  intro s listed
  have theory := Compiler.compile_fill_neutral {} withOwners pets s ⟨2, 2, 0⟩
  simp only [List.mem_cons, List.not_mem_nil, or_false] at listed
  rcases listed with rfl | rfl
  · have clear : ∀ used observed b, neverBracket.Neutral pets
        (some ⟨neverBracket.onto pets, used, observed, b⟩) := by
      intro used observed b visit there
      obtain rfl := Option.some.inj there
      rfl
    exact ⟨(theory.1 (clear _ _ _) rfl).1, (theory.2 (clear _ _ _)).1⟩
  · have same : ownerTwice.Neutral pets none := rfl
    exact ⟨(theory.1 same rfl).1, (theory.2 same).1⟩

end View
end QueryViews
