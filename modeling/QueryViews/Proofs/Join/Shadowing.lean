import QueryViews.Proofs.Join.Reads

/-! Building a view among the redirects of another party. Needs, clauses and names do not depend
on redirects, only what is written into statements does. So the view is either built as it is
without the other party, or some statement that is made on the way reads one of its columns. -/

namespace QueryViews
namespace Build

/-- The body, made a subquery if that is decided, and the build after it. -/
def bracketIf (b : Build) (applies : Bool) (body : Body) (needs : TokenSet) : Body × Build :=
  if applies then (Building.bracket body needs).run b else (body, b)

/-- The source that is made with it. -/
def madeIf (b : Build) (applies : Bool) : List Alias := if applies then [b.nextAlias] else []

def touchedIf (b : Build) (applies : Bool) (body : Body) (needs : TokenSet) : List TokenId :=
  if applies then b.touched body needs.toList else []

theorem run_bracketOn (blockers : ClauseSet) (b : Build) (body : Body) (needs : TokenSet) :
    (Building.bracketOn blockers body needs).run b =
      b.bracketIf (body.state.meets blockers) body needs :=
  Building.run_bracketOn blockers b body needs

theorem run_makeRoom (s : Step) (observed : Bool) (b : Build) (body : Body) (needs : TokenSet) :
    (Building.makeRoom s observed body needs).run b =
      (b.noted s.label body.state).bracketIf (s.brackets observed body.state) body needs := by
  rw [Building.run_makeRoom]
  rfl

section BracketIf
variable (b : Build) (applies : Bool) {body : Body} (needs : TokenSet)

theorem mem_aliases_bracketIf {a : Alias} :
    a ∈ (b.bracketIf applies body needs).1.aliases ↔ a ∈ body.aliases ∨ a ∈ b.madeIf applies := by
  cases applies with
  | false => simp [bracketIf, madeIf]
  | true =>
    have nested : a ∈ (b.bracketIf true body needs).1.aliases ↔
        a ∈ b.nextAlias :: (b.statement body needs.toList).1.aliases := by
      show a ∈ (b.nextAlias :: (b.statement body needs.toList).1.aliases) ++ [] ↔ _
      rw [List.append_nil]
    rw [nested, List.mem_cons, mem_aliases_statement, or_comm]
    exact or_congr_right List.mem_singleton.symm

theorem reads_bracketIf : ∀ c ∈ body.reads, c ∈ (b.bracketIf applies body needs).1.reads := by
  intro c read
  cases applies with
  | false => exact read
  | true => exact List.mem_append_left _ (b.reads_statement body needs.toList c read)

end BracketIf
end Build

/-- The tokens touched for a step on a view, those for the view itself being given. -/
def Step.touched (s : Step) (v : View) (below : TokenSet → Bool → Build → List TokenId)
    (used : TokenSet) (observed : Bool) (b : Build) : List TokenId :=
  let needs := s.needs observed v.scope used
  let built := (v.body needs (s.observes observed)).run b
  below needs (s.observes observed) b ++
    built.2.touchedIf (s.brackets observed built.1.state) built.1 needs

namespace View

/-- What a join asks of one of its sides. -/
def joinNeeds (side : View) (condition : Fragment) (used : TokenSet) : TokenSet :=
  (used.narrow side.scope).union ((AscendingSet.ofList condition.tokens).narrow side.scope)

/-- The bodies of both sides of a join that is made. -/
def sides (base extra : View) (mode : JoinMode) (condition : Fragment) (used : TokenSet)
    (observed : Bool) : Building (Body × Body) := do
  let baseNeeds := base.joinNeeds condition used
  let extraNeeds := extra.joinNeeds condition used
  let b ← base.body baseNeeds observed
  let x ← extra.body extraNeeds false
  let b ← Building.bracketOn JoinMode.blockersOfBase b baseNeeds
  let x ← Building.bracketOn (mode.blockersOfExtra (← get).settings.joinPolicy) x extraNeeds
  return (b, x)

/-- Whether a join leaves out its extra side; `dropsBase` says so of the other one. -/
def dropsExtra (extra : View) (mode : JoinMode) (used : TokenSet) : Prop :=
  mode = .lazy ∧ (used.narrow extra.scope).isEmpty

def dropsBase (base : View) (mode : JoinMode) (withNull observed : Bool) (used : TokenSet) : Prop :=
  mode = .lazy ∧ !withNull ∧ !observed ∧ (used.narrow base.scope).isEmpty

instance (extra : View) (mode : JoinMode) (used : TokenSet) :
    Decidable (extra.dropsExtra mode used) :=
  inferInstanceAs (Decidable (_ ∧ _))

instance (base : View) (mode : JoinMode) (withNull observed : Bool) (used : TokenSet) :
    Decidable (base.dropsBase mode withNull observed used) :=
  inferInstanceAs (Decidable (_ ∧ _))

theorem body_join (base extra : View) (mode : JoinMode) (withNull : Bool) (condition : Fragment)
    (used : TokenSet) (observed : Bool) :
    (View.join base extra mode withNull condition).body used observed =
      if extra.dropsExtra mode used then base.body (used.narrow base.scope) observed
      else if base.dropsBase mode withNull observed used then
        extra.body (used.narrow extra.scope) observed
      else do
        let both ← base.sides extra mode condition used observed
        return both.1.join both.2 mode.kind condition := by
  rw [body]
  by_cases withoutExtra : extra.dropsExtra mode used
  · rw [if_pos withoutExtra]
    exact if_pos withoutExtra
  · rw [if_neg withoutExtra]
    refine (if_neg withoutExtra).trans ?_
    by_cases withoutBase : base.dropsBase mode withNull observed used
    · rw [if_pos withoutBase]
      exact if_pos withoutBase
    · rw [if_neg withoutBase]
      refine (if_neg withoutBase).trans ?_
      simp only [sides, bind_assoc, pure_bind]
      rfl

theorem run_sides (base extra : View) (mode : JoinMode) (condition : Fragment) (used : TokenSet)
    (observed : Bool) (b : Build) :
    (base.sides extra mode condition used observed).run b =
      let baseNeeds := base.joinNeeds condition used
      let extraNeeds := extra.joinNeeds condition used
      let ofBase := (base.body baseNeeds observed).run b
      let ofExtra := (extra.body extraNeeds false).run ofBase.2
      let closed := ofExtra.2.bracketIf (ofBase.1.state.meets JoinMode.blockersOfBase) ofBase.1 baseNeeds
      let last := closed.2.bracketIf
        (ofExtra.1.state.meets (mode.blockersOfExtra closed.2.settings.joinPolicy)) ofExtra.1 extraNeeds
      ((closed.1, last.1), last.2) := by
  simp only [sides, StateT.run_bind, Build.run_bracketOn]
  rfl

/-- The tokens touched for both sides of a join that is made, those for each of them being given. -/
def touchedSides (base extra : View) (mode : JoinMode) (condition : Fragment)
    (forBase forExtra : TokenSet → Bool → Build → List TokenId) (used : TokenSet) (observed : Bool)
    (b : Build) : List TokenId :=
  let baseNeeds := base.joinNeeds condition used
  let extraNeeds := extra.joinNeeds condition used
  let ofBase := (base.body baseNeeds observed).run b
  let ofExtra := (extra.body extraNeeds false).run ofBase.2
  let closing := ofBase.1.state.meets JoinMode.blockersOfBase
  let closed := ofExtra.2.bracketIf closing ofBase.1 baseNeeds
  forBase baseNeeds observed b ++ (forExtra extraNeeds false ofBase.2 ++
    (ofExtra.2.touchedIf closing ofBase.1 baseNeeds ++ closed.2.touchedIf
      (ofExtra.1.state.meets (mode.blockersOfExtra closed.2.settings.joinPolicy)) ofExtra.1 extraNeeds))

/-- The tokens that are touched when the body of a view is built. -/
def touched : View → TokenSet → Bool → Build → List TokenId
  | .table text _ _ => fun _ _ b => b.redirects.touched text
  | .filter input condition => (Step.filter condition).touched input input.touched
  | .project input template => (Step.project template).touched input input.touched
  | .order input items => (Step.order items).touched input input.touched
  | .take input count => (Step.take count).touched input input.touched
  | .skip input count => (Step.skip count).touched input input.touched
  | .bracket input point => (Step.bracket point).touched input input.touched
  | .group input keys content => (Step.group keys content).touched input input.touched
  | .join base extra mode withNull condition => fun used observed b =>
    if extra.dropsExtra mode used then base.touched (used.narrow base.scope) observed b
    else if base.dropsBase mode withNull observed used then
      extra.touched (used.narrow extra.scope) observed b
    else base.touchedSides extra mode condition base.touched extra.touched used observed b

theorem touched_onto (v : View) (s : Step) : (s.onto v).touched = s.touched v v.touched := by
  cases s with
  | filter | project | group | order | take | skip | bracket => rfl

/-- Every view is a table, a step on a view, or a join. -/
theorem induction_onto {motive : View → Prop}
    (table : ∀ text id template, motive (.table text id template))
    (onto : ∀ s v, motive v → motive (Step.onto v s))
    (join : ∀ base extra mode withNull condition, motive base → motive extra →
      motive (.join base extra mode withNull condition)) (v : View) : motive v := by
  induction v with
  | table text id template => exact table text id template
  | filter input condition ih => exact onto (.filter condition) input ih
  | project input template ih => exact onto (.project template) input ih
  | group input keys content ih => exact onto (.group keys content) input ih
  | order input items ih => exact onto (.order items) input ih
  | take input count ih => exact onto (.take count) input ih
  | skip input count ih => exact onto (.skip count) input ih
  | bracket input point ih => exact onto (.bracket point) input ih
  | join base extra mode withNull condition ofBase ofExtra =>
    exact join base extra mode withNull condition ofBase ofExtra

end View

namespace Build

/-- The build `joint` is `own` with the redirects of another party added. -/
structure Shadowed (foreign : Redirects) (own joint : Build) : Prop where
  settings : joint.settings = own.settings
  supply : joint.supply = own.supply
  redirects : Redirects.Joint own.redirects foreign joint.redirects

/-- What comes of building something on its own and among foreign redirects. -/
inductive Meeting (foreign : Redirects) (touched : List TokenId) (own joint : Body × Build) : Prop
  | apart (untouched : ∀ id ∈ touched, foreign.lookup id = none) (same : joint.1 = own.1)
    (shadowed : own.2.Shadowed foreign joint.2)
  | leaks (touches : ∃ id ∈ touched, (foreign.lookup id).isSome = true)
    (leaks : foreign.LeaksInto joint.1.reads)

variable {foreign : Redirects} {own joint : Build}

theorem Shadowed.nextAlias (shadowed : own.Shadowed foreign joint) :
    joint.nextAlias = own.nextAlias :=
  congrArg (fun supply : Supply => Alias.mk supply.aliases) shadowed.supply

theorem Shadowed.noted (shadowed : own.Shadowed foreign joint) (label other : Option String)
    (state clauses : ClauseSet) : (own.noted label state).Shadowed foreign (joint.noted other clauses) :=
  ⟨shadowed.settings, shadowed.supply, shadowed.redirects⟩

theorem mem_touched {b : Build} {body : Body} {targets : List Token} {t : Token}
    (listed : t ∈ Token.distinct targets) : t.id ∈ b.touched body targets := by
  refine List.mem_flatMap.2 ⟨t.toFragment, ?_, ?_⟩
  · exact List.mem_append_left _ (List.mem_map_of_mem listed)
  · exact List.mem_append_left _ List.mem_cons_self

theorem Shadowed.bracketed (shadowed : own.Shadowed foreign joint) {body : Body}
    {targets : List Token} (untouched : ∀ id ∈ own.touched body targets, foreign.lookup id = none)
    (same : joint.statement body targets = own.statement body targets) :
    (own.bracketed body targets).Shadowed foreign (joint.bracketed body targets) where
  settings := shadowed.settings
  supply := congrArg (fun supply : Supply => supply.takeAlias.2) shadowed.supply
  redirects :=
    { lookup := by
        intro id
        rw [lookup_bracketed, lookup_bracketed, same, shadowed.nextAlias, shadowed.redirects.lookup,
          Option.or_assoc]
      apart := by
        intro id redirected
        rw [lookup_bracketed] at redirected
        cases found : (own.statement body targets).2.lookup id with
        | some name =>
          obtain ⟨t, listed, rfl, -⟩ := column_of_lookup found
          exact untouched t.id (mem_touched listed)
        | none =>
          rw [found] at redirected
          exact shadowed.redirects.apart id redirected
      flatOwn := flat_bracketed shadowed.redirects.flatOwn body targets
      flatForeign := shadowed.redirects.flatForeign }

theorem untouched_or_touched (foreign : Redirects) (touched : List TokenId) :
    (∀ id ∈ touched, foreign.lookup id = none) ∨
      ∃ id ∈ touched, (foreign.lookup id).isSome = true := by
  by_cases some : ∃ id ∈ touched, (foreign.lookup id).isSome = true
  · exact .inr some
  · refine .inl fun id member => ?_
    cases found : foreign.lookup id with
    | none => rfl
    | some f => exact absurd ⟨id, member, by rw [found]; rfl⟩ some

theorem Shadowed.bracketIf (shadowed : own.Shadowed foreign joint) (applies : Bool) (body : Body)
    (needs : TokenSet) :
    Meeting foreign (own.touchedIf applies body needs) (own.bracketIf applies body needs)
      (joint.bracketIf applies body needs) := by
  cases applies with
  | false => exact .apart (fun _ member => absurd member List.not_mem_nil) rfl shadowed
  | true =>
    rcases untouched_or_touched foreign (own.touched body needs.toList) with untouched | touches
    · have same := statement_of_untouched shadowed.settings shadowed.redirects untouched
      refine .apart untouched ?_ (shadowed.bracketed untouched same)
      show Body.ofSource (.subquery (joint.statement body needs.toList).1 joint.nextAlias) = _
      rw [same, shadowed.nextAlias]
      rfl
    · obtain ⟨id, touched, redirected⟩ := touches
      refine .leaks ⟨id, touched, redirected⟩ ?_
      refine (leaksInto_statement shadowed.redirects touched redirected).mono fun c read => ?_
      exact List.mem_append_left _ read

end Build

theorem Step.reads_extend (s : Step) (observed : Bool) (b : Body) :
    (s.extend observed b).reads = b.reads := by
  rw [Body.reads, source_extend, joins_extend, Body.reads]

theorem Body.mem_reads_join {b x : Body} {kind : JoinKind} {condition : Fragment}
    {c : Alias × String} : c ∈ (b.join x kind condition).reads ↔ c ∈ b.reads ∨ c ∈ x.reads := by
  simp only [reads, join, addJoin, List.mem_append, JoinClause.mem_allReads, List.mem_singleton,
    or_and_right, exists_or, exists_eq_left, or_assoc]

theorem Body.mem_aliases_join {b x : Body} {kind : JoinKind} {condition : Fragment} {a : Alias} :
    a ∈ (b.join x kind condition).aliases ↔ a ∈ b.aliases ∨ a ∈ x.aliases := by
  simp only [aliases, join, addJoin, List.mem_append, JoinClause.mem_allAliases, List.mem_singleton,
    or_and_right, exists_or, exists_eq_left, or_assoc]

namespace View
variable {foreign : Redirects}

theorem leaksInto_bracketIf {body : Body} (leaks : foreign.LeaksInto body.reads) (b : Build)
    (applies : Bool) (needs : TokenSet) : foreign.LeaksInto (b.bracketIf applies body needs).1.reads :=
  leaks.mono (b.reads_bracketIf applies needs)

theorem meeting_onto {s : Step} {v : View}
    (below : ∀ used observed (own joint : Build), own.Shadowed foreign joint →
      Build.Meeting foreign (v.touched used observed own) ((v.body used observed).run own)
        ((v.body used observed).run joint))
    (used : TokenSet) (observed : Bool) {own joint : Build} (shadowed : own.Shadowed foreign joint) :
    Build.Meeting foreign ((s.onto v).touched used observed own)
      (((s.onto v).body used observed).run own) (((s.onto v).body used observed).run joint) := by
  rw [touched_onto, run_body_onto, run_body_onto]
  simp only [Build.run_makeRoom]
  rcases below (s.needs observed v.scope used) (s.observes observed) own joint shadowed with
    ⟨untouched, same, after⟩ | ⟨⟨id, touched, redirected⟩, leaks⟩
  · rw [same]
    have noted := after.noted s.label s.label
      ((v.body (s.needs observed v.scope used) (s.observes observed)).run own).1.state
      ((v.body (s.needs observed v.scope used) (s.observes observed)).run own).1.state
    rcases noted.bracketIf (s.brackets observed _) _ (s.needs observed v.scope used) with
      ⟨clear, bodies, builds⟩ | ⟨⟨id, touched, redirected⟩, leaks⟩
    · exact .apart (List.forall_mem_append.2 ⟨untouched, clear⟩) (congrArg (s.extend observed ·) bodies)
        builds
    · refine .leaks ⟨id, List.mem_append_right _ touched, redirected⟩ ?_
      rw [Step.reads_extend]
      exact leaks
  · refine .leaks ⟨id, List.mem_append_left _ touched, redirected⟩ ?_
    rw [Step.reads_extend]
    exact leaksInto_bracketIf leaks _ _ _

theorem meeting_sides {base extra : View}
    (ofBase : ∀ used observed (own joint : Build), own.Shadowed foreign joint →
      Build.Meeting foreign (base.touched used observed own) ((base.body used observed).run own)
        ((base.body used observed).run joint))
    (ofExtra : ∀ used observed (own joint : Build), own.Shadowed foreign joint →
      Build.Meeting foreign (extra.touched used observed own) ((extra.body used observed).run own)
        ((extra.body used observed).run joint))
    (mode : JoinMode) (condition : Fragment) (used : TokenSet) (observed : Bool) {own joint : Build}
    (shadowed : own.Shadowed foreign joint) :
    let made (b : Build) : Body × Build :=
      let both := (base.sides extra mode condition used observed).run b
      (both.1.1.join both.1.2 mode.kind condition, both.2)
    Build.Meeting foreign
      (base.touchedSides extra mode condition base.touched extra.touched used observed own)
      (made own) (made joint) := by
  intro made
  simp only [made, run_sides]
  have leftLeaks : ∀ (b x : Body), foreign.LeaksInto b.reads →
      foreign.LeaksInto (b.join x mode.kind condition).reads := fun b x leaks =>
    leaks.mono fun c read => Body.mem_reads_join.2 (.inl read)
  have rightLeaks : ∀ (b x : Body), foreign.LeaksInto x.reads →
      foreign.LeaksInto (b.join x mode.kind condition).reads := fun b x leaks =>
    leaks.mono fun c read => Body.mem_reads_join.2 (.inr read)
  rcases ofBase (base.joinNeeds condition used) observed own joint shadowed with
    ⟨untouched, same, after⟩ | ⟨⟨id, touched, redirected⟩, leaks⟩
  case leaks =>
    refine .leaks ⟨id, List.mem_append_left _ touched, redirected⟩ ?_
    exact leftLeaks _ _ (leaksInto_bracketIf leaks _ _ _)
  rw [same]
  rcases ofExtra (extra.joinNeeds condition used) false _ _ after with
    ⟨untouchedExtra, sameExtra, afterExtra⟩ | ⟨⟨id, touched, redirected⟩, leaks⟩
  case leaks =>
    refine .leaks ⟨id, List.mem_append_right _ (List.mem_append_left _ touched), redirected⟩ ?_
    exact rightLeaks _ _ (leaksInto_bracketIf leaks _ _ _)
  rw [sameExtra]
  rcases afterExtra.bracketIf _ _ (base.joinNeeds condition used) with
    ⟨untouchedClosing, sameClosed, afterClosed⟩ | ⟨⟨id, touched, redirected⟩, leaks⟩
  case leaks =>
    refine .leaks ⟨id, List.mem_append_right _ (List.mem_append_right _
      (List.mem_append_left _ touched)), redirected⟩ ?_
    exact leftLeaks _ _ leaks
  rw [sameClosed, afterClosed.settings]
  rcases afterClosed.bracketIf _ _ (extra.joinNeeds condition used) with
    ⟨untouchedLast, sameLast, afterLast⟩ | ⟨⟨id, touched, redirected⟩, leaks⟩
  case leaks =>
    refine .leaks ⟨id, List.mem_append_right _ (List.mem_append_right _
      (List.mem_append_right _ touched)), redirected⟩ ?_
    exact rightLeaks _ _ leaks
  refine .apart ?_ ?_ afterLast
  · exact List.forall_mem_append.2 ⟨untouched, List.forall_mem_append.2 ⟨untouchedExtra,
      List.forall_mem_append.2 ⟨untouchedClosing, untouchedLast⟩⟩⟩
  · exact congrArg (Body.join _ · _ _) sameLast

/-- Among foreign redirects, a view is built as it is on its own, or it reads a foreign column. -/
theorem meeting_body (v : View) : ∀ used observed (own joint : Build), own.Shadowed foreign joint →
    Build.Meeting foreign (v.touched used observed own) ((v.body used observed).run own)
      ((v.body used observed).run joint) := by
  -- for all builds: the second side of a join starts from what the first one has redirected
  induction v using induction_onto with
  | table text id template =>
    intro used observed own joint shadowed
    rcases Build.untouched_or_touched foreign (own.redirects.touched text) with untouched | touches
    · refine .apart untouched ?_ shadowed
      exact congrArg (Body.ofTable · id) (shadowed.redirects.expand_of_untouched untouched)
    · obtain ⟨here, touched, redirected⟩ := touches
      refine .leaks ⟨here, touched, redirected⟩ ?_
      refine (shadowed.redirects.leaksInto_expand touched redirected).mono fun c read => ?_
      exact List.mem_append_left _ read
  | onto s v ih => exact fun used observed own joint => meeting_onto ih used observed
  | join base extra mode withNull condition ofBase ofExtra =>
    intro used observed own joint shadowed
    simp only [body_join, touched]
    by_cases withoutExtra : extra.dropsExtra mode used
    · rw [if_pos withoutExtra, if_pos withoutExtra]
      exact ofBase _ _ own joint shadowed
    · rw [if_neg withoutExtra, if_neg withoutExtra]
      by_cases withoutBase : base.dropsBase mode withNull observed used
      · rw [if_pos withoutBase, if_pos withoutBase]
        exact ofExtra _ _ own joint shadowed
      · rw [if_neg withoutBase, if_neg withoutBase]
        exact meeting_sides ofBase ofExtra mode condition used observed shadowed

end View
end QueryViews
