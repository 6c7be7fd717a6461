import QueryViews.Proofs.Arithmetic.Subqueries
import QueryViews.Proofs.Fragment.SpelledOut
import QueryViews.Proofs.Join.OnConditions

/-! The stages of a compilation: the builds that it goes through. From one stage to the next a decision
is noted or a body becomes a subquery, and nothing else happens. So at every stage each redirect is an
output column of a subquery that was made by then, which the built body holds at some depth. -/

namespace QueryViews

/-- Every redirect is an output column of one of these subqueries. -/
def Redirects.Among (r : Redirects) (made : List (Alias × Statement)) : Prop :=
  ∀ id f, r.lookup id = some f →
    ∃ q ∈ made, ∃ c ∈ q.2.columns, f = Fragment.column q.1 c.name

namespace Redirects.Among
variable {r : Redirects} {made more : List (Alias × Statement)}

theorem flat (among : r.Among made) : r.Flat := by
  intro id f found
  obtain ⟨q, -, c, -, column⟩ := among id f found
  exact ⟨q.1, c.name, column⟩

theorem mono (among : r.Among made) (within : ∀ q ∈ made, q ∈ more) : r.Among more := by
  intro id f found
  obtain ⟨q, inside, column⟩ := among id f found
  exact ⟨q, within q inside, column⟩

end Redirects.Among

namespace Build

/-- One move of a compilation, and the subquery that it makes, if any. -/
inductive Move : Build → List (Alias × Statement) → Build → Prop
  | note (b : Build) (label : Option String) (state : ClauseSet) : Move b [] (b.noted label state)
  | close (b : Build) (applies : Bool) (body : Body) (needs : TokenSet) :
    Move b (if applies then [(b.nextAlias, (b.statement body needs.toList).1)] else [])
      (b.bracketIf applies body needs).2

/-- Moves one after the other: the builds that they lead to, in order, the subqueries that they make,
the newest first, and the build that they end with. -/
inductive Path (b : Build) : List Build → List (Alias × Statement) → Build → Prop
  | start : Path b [] [] b
  | move {stages : List Build} {made new : List (Alias × Statement)} {last next : Build}
    (before : Path b stages made last) (step : Move last new next) :
    Path b (stages ++ [next]) (new ++ made) next

variable {b last next : Build} {stages : List Build} {made new : List (Alias × Statement)}

theorem Path.append {others : List Build} {more : List (Alias × Statement)} {final : Build}
    (first : Path b stages made last) (second : Path last others more final) :
    Path b (stages ++ others) (more ++ made) final := by
  induction second with
  | start => exact (List.append_nil stages).symm ▸ first
  | move before step ih => simpa only [List.append_assoc] using ih.move step

theorem Move.among (step : Move b new next) (among : b.redirects.Among made) :
    next.redirects.Among (new ++ made) := by
  cases step with
  | note label state => exact among
  | close applies body needs =>
    cases applies with
    | false => exact among
    | true =>
      intro id f found
      have bracketed : (b.bracketed body needs.toList).redirects.lookup id = some f := found
      rw [lookup_bracketed] at bracketed
      rcases Option.or_eq_some_iff.1 bracketed with selected | ⟨-, before⟩
      · obtain ⟨name, listed, rfl⟩ := Option.map_eq_some_iff.1 selected
        obtain ⟨t, -, -, column⟩ := column_of_lookup listed
        exact ⟨_, List.mem_cons_self, _, column, rfl⟩
      · obtain ⟨q, inside, column⟩ := among id f before
        exact ⟨q, List.mem_cons_of_mem _ inside, column⟩

/-- At each stage, what tokens stand for comes from subqueries made on the path. -/
theorem Path.among (path : Path b stages made last) (fresh : b.redirects = {}) :
    ∀ stage ∈ b :: stages, stage.redirects.Among made := by
  have both : (∀ stage ∈ b :: stages, stage.redirects.Among made) ∧ last.redirects.Among made := by
    induction path with
    | start =>
      have none : b.redirects.Among [] := by
        intro id f found
        rw [fresh] at found
        exact nomatch found
      exact ⟨List.forall_mem_singleton.2 none, none⟩
    | @move stages made new last next before step ih =>
      have reached := step.among ih.2
      have earlier : ∀ stage ∈ b :: stages, stage.redirects.Among (new ++ made) :=
        fun stage listed => (ih.1 stage listed).mono fun q inside =>
          List.mem_append_right new inside
      refine ⟨?_, reached⟩
      rw [← List.cons_append]
      exact List.forall_mem_append.2 ⟨earlier, List.forall_mem_singleton.2 reached⟩
  exact both.1

end Build

/-- The builds that a step on a view goes through, those of the view itself being given. -/
def Step.builds (s : Step) (v : View) (below : TokenSet → Bool → Build → List Build)
    (used : TokenSet) (observed : Bool) (b : Build) : List Build :=
  let needs := s.needs observed v.scope used
  let built := (v.body needs (s.observes observed)).run b
  below needs (s.observes observed) b ++
    [built.2.noted s.label built.1.state, (((s.onto v).body used observed).run b).2]

namespace View

/-- The builds that come one after the other while the body of the view is built. -/
def builds : View → TokenSet → Bool → Build → List Build
  | .table _ _ _ => fun _ _ _ => []
  | .filter input condition => (Step.filter condition).builds input input.builds
  | .project input template => (Step.project template).builds input input.builds
  | .order input items => (Step.order items).builds input input.builds
  | .take input count => (Step.take count).builds input input.builds
  | .skip input count => (Step.skip count).builds input input.builds
  | .bracket input point => (Step.bracket point).builds input input.builds
  | .group input keys content => (Step.group keys content).builds input input.builds
  | .join base extra mode withNull condition => fun used observed b =>
    if extra.dropsExtra mode used then base.builds (used.narrow base.scope) observed b
    else if base.dropsBase mode withNull observed used then
      extra.builds (used.narrow extra.scope) observed b
    else
      let st := base.stages extra mode condition used observed b
      base.builds (base.joinNeeds condition used) observed b ++
        (extra.builds (extra.joinNeeds condition used) false st.first.2 ++
          [st.closed.2, st.last.2])

theorem builds_onto (v : View) (s : Step) : (s.onto v).builds = s.builds v v.builds := by
  cases s with
  | filter | project | group | order | take | skip | bracket => rfl

section Join
variable {base extra : View} {mode : JoinMode} {withNull : Bool} {condition : Fragment}
  {used : TokenSet} {observed : Bool} (b : Build)

theorem builds_of_dropsExtra (drops : extra.dropsExtra mode used) :
    (View.join base extra mode withNull condition).builds used observed b =
      base.builds (used.narrow base.scope) observed b :=
  if_pos drops

theorem builds_of_dropsBase (keeps : ¬ extra.dropsExtra mode used)
    (drops : base.dropsBase mode withNull observed used) :
    (View.join base extra mode withNull condition).builds used observed b =
      extra.builds (used.narrow extra.scope) observed b :=
  (if_neg keeps).trans (if_pos drops)

theorem builds_of_joins (joins : Joins base extra mode withNull used observed) :
    (View.join base extra mode withNull condition).builds used observed b =
      let st := base.stages extra mode condition used observed b
      base.builds (base.joinNeeds condition used) observed b ++
        (extra.builds (extra.joinNeeds condition used) false st.first.2 ++
          [st.closed.2, st.last.2]) :=
  (if_neg joins.1).trans (if_neg joins.2)

end Join

/-- The builds lead from the one that a view is given to the one it leaves, and the subqueries made
on the way are all in its body. -/
theorem path_builds (v : View) (used : TokenSet) (observed : Bool) (b : Build) :
    ∃ made, b.Path (v.builds used observed b) made ((v.body used observed).run b).2 ∧
      ∀ q ∈ made, q ∈ ((v.body used observed).run b).1.subqueries := by
  induction v, used, observed, b using visits_induction with
  | table => exact ⟨[], .start, fun _ none => absurd none List.not_mem_nil⟩
  | onto s v used observed b ih =>
    obtain ⟨made, path, inside⟩ := ih
    let needs := s.needs observed v.scope used
    let built := (v.body needs (s.observes observed)).run b
    have noted := path.move (.note built.2 s.label built.1.state)
    have closed := noted.move (.close _ (s.brackets observed built.1.state) built.1 needs)
    rw [List.append_assoc] at closed
    simp only [builds_onto, Step.builds, run_body_onto, Build.run_makeRoom, Step.subqueries_extend,
      Build.subqueries_bracketIf]
    refine ⟨_, closed, fun q member => ?_⟩
    exact List.mem_append.2 ((List.mem_append.1 member).imp_right (inside q))
  | baseOnly base extra mode withNull condition used observed b drops ih =>
    rw [run_body_of_dropsExtra b drops, builds_of_dropsExtra b drops]
    exact ih
  | extraOnly base extra mode withNull condition used observed b keeps drops ih =>
    rw [run_body_of_dropsBase b keeps drops, builds_of_dropsBase b keeps drops]
    exact ih
  | both base extra mode withNull condition used observed b joins ofBase ofExtra =>
    obtain ⟨first, pathBase, inBase⟩ := ofBase
    obtain ⟨second, pathExtra, inExtra⟩ := ofExtra
    rw [run_body_of_joins b joins, builds_of_joins b joins]
    let st := base.stages extra mode condition used observed b
    have closed := pathExtra.move (.close st.second.2
      (st.first.1.state.meets JoinMode.blockersOfBase) st.first.1 (base.joinNeeds condition used))
    have last := closed.move (.close st.closed.2
      (st.second.1.state.meets (mode.blockersOfExtra st.closed.2.settings.joinPolicy)) st.second.1
      (extra.joinNeeds condition used))
    rw [List.append_assoc] at last
    simp only [run_sides_stages, stages, Body.subqueries_join, Build.subqueries_bracketIf]
    refine ⟨_, pathBase.append last, fun q member => ?_⟩
    simp only [List.mem_append] at member ⊢
    rcases member with (ofLast | ofClosed | below) | below
    · exact .inr (.inl ofLast)
    · exact .inl (.inl ofClosed)
    · exact .inr (.inr (inExtra q below))
    · exact .inl (.inr (inBase q below))

end View
end QueryViews
