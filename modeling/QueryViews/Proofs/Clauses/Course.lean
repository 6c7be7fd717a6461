import QueryViews.Proofs.Clauses.Tally
import QueryViews.Proofs.Scope.JoinFree

/-! The course of a body: the visits whose clauses stand in the body itself and not in one of its
subqueries. What a count puts above the rows of a view follows from it. -/

namespace QueryViews

/-- The course of a step on a view, that of the view itself being given. It ends at a bracket. -/
def Step.course (s : Step) (v : View) (below : TokenSet → Bool → Build → List Visit)
    (used : TokenSet) (observed : Bool) (b : Build) : List Visit :=
  let needs := s.needs observed v.scope used
  let built := (v.body needs (s.observes observed)).run b
  ⟨s.onto v, used, observed, b⟩ ::
    if s.brackets observed built.1.state then [] else below needs (s.observes observed) b

namespace View

/-- The visits that the clauses of the body come from, the last one first. A join goes on with the
clauses of its base. -/
def course : View → TokenSet → Bool → Build → List Visit
  | .table text id template => fun used observed b => [⟨.table text id template, used, observed, b⟩]
  | .filter input condition => (Step.filter condition).course input input.course
  | .project input template => (Step.project template).course input input.course
  | .order input items => (Step.order items).course input input.course
  | .take input count => (Step.take count).course input input.course
  | .skip input count => (Step.skip count).course input input.course
  | .bracket input point => (Step.bracket point).course input input.course
  | .group input keys content => (Step.group keys content).course input input.course
  | .join base extra mode withNull condition => fun used observed b =>
    ⟨.join base extra mode withNull condition, used, observed, b⟩ ::
      if extra.dropsExtra mode used then base.course (used.narrow base.scope) observed b
      else if base.dropsBase mode withNull observed used then
        extra.course (used.narrow extra.scope) observed b
      else
        let needs := base.joinNeeds condition used
        if ((base.body needs observed).run b).1.state.meets JoinMode.blockersOfBase then []
        else base.course needs observed b

theorem course_onto (v : View) (s : Step) : (s.onto v).course = s.course v v.course := by
  cases s with
  | filter | project | group | order | take | skip | bracket => rfl

section Join
variable {base extra : View} {mode : JoinMode} {withNull : Bool} {condition : Fragment}
  {used : TokenSet} {observed : Bool} (b : Build)

theorem course_of_dropsExtra (drops : extra.dropsExtra mode used) :
    (View.join base extra mode withNull condition).course used observed b =
      ⟨.join base extra mode withNull condition, used, observed, b⟩ ::
        base.course (used.narrow base.scope) observed b :=
  congrArg (_ :: ·) (if_pos drops)

theorem course_of_dropsBase (keeps : ¬ extra.dropsExtra mode used)
    (drops : base.dropsBase mode withNull observed used) :
    (View.join base extra mode withNull condition).course used observed b =
      ⟨.join base extra mode withNull condition, used, observed, b⟩ ::
        extra.course (used.narrow extra.scope) observed b :=
  congrArg (_ :: ·) ((if_neg keeps).trans (if_pos drops))

theorem course_of_joins (joins : Joins base extra mode withNull used observed) :
    (View.join base extra mode withNull condition).course used observed b =
      ⟨.join base extra mode withNull condition, used, observed, b⟩ ::
        if ((base.body (base.joinNeeds condition used) observed).run b).1.state.meets
            JoinMode.blockersOfBase then []
        else base.course (base.joinNeeds condition used) observed b :=
  congrArg (_ :: ·) ((if_neg joins.1).trans (if_neg joins.2))

end Join

/-- What holds of a body made of one source, with nothing on its course yet, and is kept by every
visit put on it, holds of a built body with its course. -/
theorem course_induction {motive : Body → List Visit → Prop}
    (source : ∀ s, motive (.ofSource s) [])
    (table : ∀ text id template used observed build s,
      motive (.ofSource s) [⟨.table text id template, used, observed, build⟩])
    (onto : ∀ s v used observed build body course, body.Marked → motive body course →
      motive (Step.extend observed body s) (⟨s.onto v, used, observed, build⟩ :: course))
    (side : ∀ base extra mode withNull condition used observed build body course,
      motive body course →
        motive body (⟨.join base extra mode withNull condition, used, observed, build⟩ :: course))
    (join : ∀ base extra mode withNull condition used observed build body joined course,
      body.state.meets .aggregate = false → motive body course →
        motive (body.join joined mode.kind condition)
          (⟨.join base extra mode withNull condition, used, observed, build⟩ :: course))
    (v : View) (used : TokenSet) (observed : Bool) (b : Build) :
    motive ((v.body used observed).run b).1 (v.course used observed b) := by
  induction v, used, observed, b using visits_induction with
  | table text id template used observed b =>
    exact table text id template used observed b (.table (b.redirects.expand text) id)
  | onto s v used observed b ih =>
    simp only [run_body_onto, Build.run_makeRoom, course_onto, Step.course]
    have marked := (marked_body v (s.needs observed v.scope used) (s.observes observed) b)
    refine onto s v used observed b _ _ (marked.bracketIf _ _ _) ?_
    cases s.brackets observed
        ((v.body (s.needs observed v.scope used) (s.observes observed)).run b).1.state with
    | true => exact source _
    | false => exact ih
  | baseOnly base extra mode withNull condition used observed b drops ih =>
    rw [run_body_of_dropsExtra b drops, course_of_dropsExtra b drops]
    exact side base extra mode withNull condition used observed b _ _ ih
  | extraOnly base extra mode withNull condition used observed b keeps drops ih =>
    rw [run_body_of_dropsBase b keeps drops, course_of_dropsBase b keeps drops]
    exact side base extra mode withNull condition used observed b _ _ ih
  | both base extra mode withNull condition used observed b joins ofBase =>
    rw [run_body_of_joins b joins, course_of_joins b joins]
    simp only [run_sides]
    refine join base extra mode withNull condition used observed b _ _ _
      (Build.clear_bracketIf _ _ _ _) ?_
    cases ((base.body (base.joinNeeds condition used) observed).run b).1.state.meets
        JoinMode.blockersOfBase with
    | true => exact source _
    | false => exact ofBase

end View

namespace Visit

/-- The sort keys of the visited step, if the order of its rows can be observed. -/
def items (visit : Visit) : List OrderItem :=
  match visit.view with
  | .order _ items => if visit.observed then items else []
  | .table _ _ _ | .filter _ _ | .join _ _ _ _ _ | .group _ _ _ | .project _ _ | .take _ _
  | .skip _ _ | .bracket _ _ => []

/-- The visited step groups rows, or it limits their number. -/
def limits (visit : Visit) : Bool :=
  match visit.view with
  | .group _ _ _ | .take _ _ => true
  | .table _ _ _ | .filter _ _ | .join _ _ _ _ _ | .project _ _ | .order _ _ | .skip _ _
  | .bracket _ _ => false

/-- How many rows the visited step skips. -/
def skips (visit : Visit) : Nat :=
  match visit.view with
  | .skip _ count => count
  | .table _ _ _ | .filter _ _ | .join _ _ _ _ _ | .group _ _ _ | .project _ _ | .order _ _
  | .take _ _ | .bracket _ _ => 0

/-- The visits group rows or cut a window out of them: one of them limits the rows, or what they
skip, added up in a register, comes to some. -/
def cut (course : List Visit) : Bool :=
  course.any limits || 0 < sumCounts (course.map skips)

theorem items_of_unobserved {visit : Visit} (unobserved : visit.observed = false) :
    visit.items = [] := by
  obtain ⟨view, used, observed, build⟩ := visit
  obtain rfl := unobserved
  cases view with
  | order => rfl
  | table | filter | join | group | project | take | skip | bracket => rfl

end Visit

/-- A body without groups and windows leaves no rows out. -/
theorem Body.whole_of_clear {b : Body} (clear : b.state.meets .aggregate = false) :
    b.skip = 0 ∧ b.take = none := by
  simp only [ClauseSet.meets, ClauseSet.aggregate, ClauseSet.window, Body.state, Bool.and_true,
    Bool.and_false, Bool.false_or, Bool.or_false, Bool.or_eq_false_iff] at clear
  obtain ⟨⟨-, skip⟩, take⟩ := clear
  exact ⟨by simpa using skip, by simpa using take⟩

/-- What limits the rows of a body, whether or not some are skipped. -/
def ClauseSet.limiting : ClauseSet := { aggregate with skip := false }

theorem Body.meets_aggregate_eq (b : Body) :
    b.state.meets .aggregate = (b.state.meets .limiting || decide (0 < b.skip)) := by
  have skip : b.state.skip = decide (0 < b.skip) := rfl
  rw [← skip]
  simp only [ClauseSet.meets, ClauseSet.aggregate, ClauseSet.limiting, ClauseSet.window,
    Bool.and_true, Bool.and_false, Bool.false_or, Bool.or_false]
  ac_rfl

theorem Body.Marked.grouped_eq {b : Body} (marked : b.Marked) : b.grouped = b.state.group := by
  cases grouped : b.grouped with
  | true => simp [Body.state, grouped]
  | false =>
    have keyless : b.keys = [] := by
      by_contra keys
      exact Bool.noConfusion (grouped.symm.trans (marked (.inr keys)))
    simp [Body.state, grouped, keyless]

section Extend
variable (s : Step) (v : View) (used : TokenSet) (observed : Bool) (build : Build) {b : Body}

theorem Step.order_extend :
    (s.extend observed b).order = Visit.items ⟨s.onto v, used, observed, build⟩ ++ b.order := by
  cases s with
  | filter condition =>
    rw [extend, Body.addCondition]
    split
    · rfl
    · rfl
  | order items =>
    cases observed with
    | true => rfl
    | false => rfl
  | group | project | take | skip | bracket => rfl

theorem Step.meets_limiting_extend (marked : b.Marked) :
    (s.extend observed b).state.meets .limiting =
      (Visit.limits ⟨s.onto v, used, observed, build⟩ || b.state.meets .limiting) := by
  rw [state_extend s observed marked.grouped_eq]
  cases s with
  | filter condition =>
    rw [clauses]
    -- a condition on groups stands in a body that is grouped, so it blocks nothing new
    split
    next grouped =>
      simp [ClauseSet.meets, ClauseSet.limiting, ClauseSet.aggregate, ClauseSet.window, grouped,
        Visit.limits, onto]
    next =>
      simp [ClauseSet.meets, ClauseSet.limiting, ClauseSet.aggregate, ClauseSet.window,
        Visit.limits, onto]
  | group | order | take | skip | project | bracket =>
    simp [clauses, ClauseSet.meets, ClauseSet.limiting, ClauseSet.aggregate, ClauseSet.window,
      Visit.limits, onto]

theorem Visit.skips_onto : Visit.skips ⟨s.onto v, used, observed, build⟩ = s.skips := by
  cases s with
  | filter | group | order | take | skip | project | bracket => rfl

end Extend

namespace View
variable (v : View)

/-- The sort keys of a body are those of its course, the newest ones first. -/
theorem order_body (used : TokenSet) (observed : Bool) (b : Build) :
    ((v.body used observed).run b).1.order = (v.course used observed b).flatMap Visit.items := by
  refine course_induction (motive := fun body course => body.order = course.flatMap Visit.items)
    ?source ?table ?onto ?side ?join v used observed b
  case source => exact fun _ => rfl
  case table => exact fun _ _ _ _ _ _ _ => rfl
  case onto =>
    intro s v used observed build body course _ same
    rw [s.order_extend v used observed build, same, List.flatMap_cons]
  case side => exact fun _ _ _ _ _ _ _ _ _ _ same => same
  case join => exact fun _ _ _ _ _ _ _ _ _ _ _ _ same => same

theorem meets_limiting_body (used : TokenSet) (observed : Bool) (b : Build) :
    ((v.body used observed).run b).1.state.meets .limiting =
      (v.course used observed b).any Visit.limits := by
  refine course_induction
    (motive := fun body course => body.state.meets .limiting = course.any Visit.limits)
    ?source ?table ?onto ?side ?join v used observed b
  case source => exact fun _ => rfl
  case table => exact fun _ _ _ _ _ _ _ => rfl
  case onto =>
    intro s v used observed build body course marked same
    rw [s.meets_limiting_extend v used observed build marked, same, List.any_cons]
  case side => exact fun _ _ _ _ _ _ _ _ _ _ same => same
  case join =>
    intro base extra mode withNull condition used observed build body joined course clear same
    have unlimited : body.state.meets .limiting = false := ClauseSet.clear_of_le (by decide) clear
    rw [List.any_cons, ← same, unlimited]
    simp [Body.join, Body.addJoin, Body.state, ClauseSet.meets, ClauseSet.limiting,
      ClauseSet.aggregate, ClauseSet.window, Visit.limits, (Body.whole_of_clear clear).2]

/-- A body skips the rows that the steps on its course skip, added up in a register. -/
theorem skip_body (used : TokenSet) (observed : Bool) (b : Build) :
    ((v.body used observed).run b).1.skip =
      sumCounts ((v.course used observed b).map Visit.skips) := by
  refine course_induction
    (motive := fun body course => body.skip = sumCounts (course.map Visit.skips))
    ?source ?table ?onto ?side ?join v used observed b
  case source => exact fun _ => rfl
  case table => exact fun _ _ _ _ _ _ _ => rfl
  case onto =>
    intro s v used observed build body course _ same
    rw [s.skip_extend_of_sum observed same, List.map_cons, Visit.skips_onto]
  case side =>
    intro base extra mode withNull condition used observed build body course same
    rw [List.map_cons, same]
    exact (sumCounts_zero_cons _).symm
  case join =>
    intro base extra mode withNull condition used observed build body joined course _ same
    have kept : (body.join joined mode.kind condition).skip = body.skip := rfl
    rw [List.map_cons, kept, same]
    exact (sumCounts_zero_cons _).symm

/-- There are groups or a window in a body exactly if its course makes them. -/
theorem meets_aggregate_body (used : TokenSet) (observed : Bool) (b : Build) :
    ((v.body used observed).run b).1.state.meets .aggregate =
      Visit.cut (v.course used observed b) := by
  rw [Body.meets_aggregate_eq, meets_limiting_body, skip_body, Visit.cut]

/-- Where no window is on the course, it is observed all along what is observed at its end. -/
theorem observed_of_course {used : TokenSet} {observed : Bool} {b : Build}
    (still : ∀ visit ∈ v.course used observed b, ∀ input count,
      visit.view ≠ .take input count ∧ visit.view ≠ .skip input count) :
    ∀ visit ∈ v.course used observed b, visit.observed = observed := by
  induction v, used, observed, b using visits_induction with
  | table => exact List.forall_mem_singleton.2 rfl
  | onto s v used observed b ih =>
    rw [course_onto, Step.course] at still ⊢
    obtain ⟨here, below⟩ := List.forall_mem_cons.1 still
    refine List.forall_mem_cons.2 ⟨rfl, ?_⟩
    split at below
    next brackets =>
      rw [if_pos brackets]
      exact fun _ none => absurd none List.not_mem_nil
    next clear =>
      rw [if_neg clear]
      have same : s.observes observed = observed := by
        cases s with
        | take count => exact absurd rfl (here v count).1
        | skip count => exact absurd rfl (here v count).2
        | filter | project | group | order | bracket => rfl
      exact fun visit member => (ih below visit member).trans same
  | baseOnly base extra mode withNull condition used observed b drops ih =>
    rw [course_of_dropsExtra b drops] at still ⊢
    exact List.forall_mem_cons.2 ⟨rfl, ih (List.forall_mem_cons.1 still).2⟩
  | extraOnly base extra mode withNull condition used observed b keeps drops ih =>
    rw [course_of_dropsBase b keeps drops] at still ⊢
    exact List.forall_mem_cons.2 ⟨rfl, ih (List.forall_mem_cons.1 still).2⟩
  | both base extra mode withNull condition used observed b joins ofBase =>
    rw [course_of_joins b joins] at still ⊢
    refine List.forall_mem_cons.2 ⟨rfl, ?_⟩
    have below := (List.forall_mem_cons.1 still).2
    split at below
    next blocked =>
      rw [if_pos blocked]
      exact fun _ none => absurd none List.not_mem_nil
    next clear =>
      rw [if_neg clear]
      exact ofBase below

/-- A course that starts unobserved, without a grouping and a window, has sort keys only below a
step that skips no row at all, or below skips that overflow. -/
theorem exists_skip_of_items {used : TokenSet} {b : Build}
    (whole : Visit.cut (v.course used false b) = false)
    (some : (v.course used false b).flatMap Visit.items ≠ []) :
    ∃ visit ∈ v.course used false b, ∃ input count, visit.view = .skip input count ∧
      (count = 0 ∨ Text.registerBound ≤ totalCount ((v.course used false b).map Visit.skips)) := by
  obtain ⟨unlimited, unskipped⟩ := Bool.or_eq_false_iff.1 whole
  by_contra absent
  push Not at absent
  have still : ∀ visit ∈ v.course used false b, visit.observed = false := by
    refine v.observed_of_course fun visit member input count => ⟨?_, ?_⟩
    · intro view
      have kept := List.any_eq_false.1 unlimited visit member
      simp [Visit.limits, view] at kept
    · intro view
      -- a skip of some rows that add up to none has gone once round the register
      obtain ⟨rows, fits⟩ := absent visit member input count view
      have part : count ≤ totalCount ((v.course used false b).map Visit.skips) := by
        have skips : visit.skips = count := by simp only [Visit.skips, view]
        exact skips ▸ le_totalCount (List.mem_map_of_mem member)
      have sum : sumCounts ((v.course used false b).map Visit.skips) = _ :=
        Nat.mod_eq_of_lt (by omega)
      have none : ¬ 0 < totalCount ((v.course used false b).map Visit.skips) := by
        simpa [sum] using unskipped
      omega
  exact some (List.flatMap_eq_nil_iff.2 fun visit member =>
    Visit.items_of_unobserved (still visit member))

/-- The body that is counted is a body of rows: what would change their number is in a subquery. Its
sort keys are those of the course if that makes no groups and no window, and there are none unless
the course goes through a step that skips no row at all, or through skips that overflow: a skip has
the rows below it ordered, as any window does, but then leaves no window in the body. -/
theorem clauses_of_count (settings : Settings) (supply : Supply) :
    let start : Build := { settings, supply }
    let course := v.course .empty false start
    let redirects := ((v.body .empty false).run start).2.redirects
    let outer := ((v.countPlan settings).run supply).1.statement.body
    (outer.Ungrouped ∧ outer.skip = 0 ∧ outer.take = none) ∧
      outer.order = (if Visit.cut course then []
        else (course.flatMap Visit.items).map (SortKey.map redirects.expand)) ∧
      (outer.order ≠ [] → ∃ visit ∈ course, ∃ input count, visit.view = .skip input count ∧
        (count = 0 ∨ Text.registerBound ≤ totalCount (course.map Visit.skips))) := by
  intro start course redirects outer
  have counted : outer = ((v.countedBody.run start).1.expanded
      (v.countedBody.run start).2.redirects) := rfl
  have cuts : ((v.body .empty false).run start).1.state.meets .aggregate = Visit.cut course :=
    v.meets_aggregate_body .empty false start
  have items : ((v.body .empty false).run start).1.order = course.flatMap Visit.items :=
    v.order_body .empty false start
  rw [run_countedBody] at counted
  cases closed : Visit.cut course with
  | true =>
    simp only [cuts, closed, if_true, Building.run_bracket] at counted
    have none : outer.order = [] := congrArg Body.order counted
    rw [counted]
    exact ⟨⟨⟨rfl, rfl, rfl⟩, rfl, rfl⟩, rfl, fun some => absurd rfl some⟩
  | false =>
    simp only [cuts, closed, Bool.false_eq_true, if_false] at counted
    have sorted : outer.order = (course.flatMap Visit.items).map (SortKey.map redirects.expand) := by
      rw [counted, ← items]
      rfl
    have clear := cuts.trans closed
    obtain ⟨keyless, ungrouped, having⟩ := Body.Ungrouped.of_clear clear
    obtain ⟨unskipped, untaken⟩ := Body.whole_of_clear clear
    refine ⟨⟨⟨?_, ?_, ?_⟩, ?_, ?_⟩, sorted, fun some => ?_⟩
    · rw [counted]
      exact congrArg (List.map redirects.expand) keyless
    · rw [counted]
      exact ungrouped
    · rw [counted]
      exact congrArg (List.map redirects.expand) having
    · rw [counted]
      exact unskipped
    · rw [counted]
      exact untaken
    · refine v.exists_skip_of_items closed fun none => some ?_
      rw [sorted, none]
      rfl

/-- The orders by amount, without skipping any. -/
def unskipped : List Step := [.order [⟨amount.toFragment, .ascending, none⟩], .skip 0]

theorem ordered_count :
    ∃ v, orders.applyAll unskipped = .ok v ∧
      ((v.countPlan {}).run { tokens := 1, aliases := 1 }).1.statement.body.order ≠ [] := by
  refine ⟨_, rfl, ?_⟩
  decide

end View
end QueryViews
