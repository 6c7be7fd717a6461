import QueryViews.Proofs.Clauses.Course
import QueryViews.Proofs.Demand.Neutral
import QueryViews.Proofs.Scope.TidyViews

/-! How far an order gets. What is put on ordered rows later leaves their order where it is, unless
it takes a subquery: then the subquery keeps the order to itself. That happens to a condition or a
join above a window, and to a join above groups. -/

namespace QueryViews

/-- What a later call puts on the rows. -/
inductive Layer where
  | condition
  | join
  | take
  | skip (count : Nat)
deriving DecidableEq

namespace Layer

def skips : Layer → Nat
  | .skip count => count
  | .condition | .join | .take => 0

/-- The layers cut a window out of the rows: they limit them, or what they skip, added up in a
register, comes to some. -/
def Windowed (layers : List Layer) : Prop :=
  .take ∈ layers ∨ 0 < sumCounts (layers.map skips)

instance (layers : List Layer) : Decidable (Windowed layers) := inferInstanceAs (Decidable (_ ∨ _))

/-- The layer can be put on the SELECT that the layers below it are in. -/
def Fits (grouped : Bool) (below : List Layer) : Layer → Prop
  | .condition => ¬ Windowed below
  | .join => ¬ Windowed below ∧ grouped = false
  | .take | .skip _ => True

instance (grouped : Bool) (below : List Layer) :
    (layer : Layer) → Decidable (layer.Fits grouped below)
  | .condition => inferInstanceAs (Decidable (¬ Windowed below))
  | .join => inferInstanceAs (Decidable (¬ Windowed below ∧ grouped = false))
  | .take | .skip _ => inferInstanceAs (Decidable True)

/-- No condition and no join stands above a window, and no join above groups. The last call comes
first. -/
def Carried (grouped : Bool) : List Layer → Prop
  | [] => True
  | layer :: below => layer.Fits grouped below ∧ Carried grouped below

def decideCarried (grouped : Bool) : (layers : List Layer) → Decidable (Carried grouped layers)
  | [] => inferInstanceAs (Decidable True)
  | _ :: below => @instDecidableAnd _ _ inferInstance (decideCarried grouped below)

instance (grouped : Bool) (layers : List Layer) : Decidable (Carried grouped layers) :=
  decideCarried grouped layers

variable {grouped : Bool} {layers : List Layer}

theorem Carried.of_append {more : List Layer} (carried : Carried grouped (more ++ layers)) :
    Carried grouped layers := by
  induction more with
  | nil => exact carried
  | cons layer rest ih => exact ih carried.2

end Layer

namespace Step

def layers : Step → List Layer
  | .filter _ => [.condition]
  | .take _ => [.take]
  | .skip count => [.skip count]
  | .project _ | .group _ _ | .order _ | .bracket _ => []

/-- Steps that put no order of their own on the rows, and no groups or brackets. -/
def Passes : Step → Prop
  | .filter _ | .project _ | .take _ | .skip _ => True
  | .group _ _ | .order _ | .bracket _ => False

end Step

namespace View.Context

/-- Above the hole, there are only such steps, and joins that have the hole in their base. -/
def Passes : Context → Prop
  | .here => True
  | .onto s inner => s.Passes ∧ inner.Passes
  | .inBase inner _ _ _ _ => inner.Passes
  | .inExtra _ _ _ _ _ => False

/-- What the calls above the hole put on its rows, for what is used of them all. A lazy join that is
left out puts nothing. -/
def layers (v : View) : Context → TokenSet → List Layer
  | .here => fun _ => []
  | .onto s inner => fun used => s.layers ++ inner.layers v (s.needs true (inner.fill v).scope used)
  | .inBase inner extra mode _ condition => fun used =>
    if extra.dropsExtra mode used then inner.layers v (used.narrow (inner.fill v).scope)
    else .join :: inner.layers v ((inner.fill v).joinNeeds condition used)
  | .inExtra _ _ _ _ _ => fun _ => []

end View.Context

/-- The order stands first in the body, with these layers above it and no bracket between. -/
structure Body.Leads (b : Body) (items : List OrderItem) (grouped : Bool) (layers : List Layer) :
    Prop where
  order : items <+: b.order
  skip : b.skip = sumCounts (layers.map Layer.skips)
  take : b.take.isSome = true ↔ .take ∈ layers
  group : b.state.group = grouped

/-- The body has no order, and the items lead the order of a SELECT nested in it, as they were
written there. -/
def Body.Buries (b : Body) (items : List OrderItem) : Prop :=
  b.order = [] ∧ ∃ s ∈ b.nested, ∃ r : Redirects, items.map (SortKey.map r.expand) <+: s.body.order

/-- Either the layers let the order through to the body, or it has stayed in a subquery. -/
structure Body.Follows (b : Body) (items : List OrderItem) (grouped : Bool) (layers : List Layer) :
    Prop where
  leads : Layer.Carried grouped layers → b.Leads items grouped layers
  buries : ¬ Layer.Carried grouped layers → b.Buries items

theorem ClauseSet.meets_window_iff {state : ClauseSet} :
    state.meets .window = true ↔ state.skip = true ∨ state.take = true := by
  simp [meets, window]

namespace Step
variable {s : Step} {b : Body}

theorem order_extend_of_passes (passes : s.Passes) : (s.extend true b).order = b.order := by
  cases s with
  | filter condition =>
    rw [extend, Body.addCondition]
    split
    · rfl
    · rfl
  | project | take | skip => rfl
  | group | order | bracket => exact passes.elim

theorem sumCounts_layers (layers : List Layer) :
    sumCounts ((s.layers ++ layers).map Layer.skips) =
      sumCounts (s.skips :: layers.map Layer.skips) := by
  cases s with
  | filter | take | skip => rfl
  | project | group | order | bracket => exact (sumCounts_zero_cons _).symm

theorem take_extend_of_passes (passes : s.Passes) {layers : List Layer}
    (taken : b.take.isSome = true ↔ .take ∈ layers) :
    (s.extend true b).take.isSome = true ↔ .take ∈ s.layers ++ layers := by
  cases s with
  | filter condition =>
    have same : ((Step.filter condition).extend true b).take = b.take := by
      rw [extend, Body.addCondition]
      split
      · rfl
      · rfl
    simp [same, taken, Step.layers]
  | project => exact taken
  | take => exact iff_of_true rfl List.mem_cons_self
  | skip => simp [extend, Body.addSkip, taken, Step.layers]
  | group | order | bracket => exact passes.elim

theorem group_clauses (passes : s.Passes) (state : ClauseSet) (before : Nat) :
    (s.clauses true state before).group = state.group := by
  cases s with
  | filter condition =>
    rw [clauses]
    split
    · rfl
    · rfl
  | project | take | skip => rfl
  | group | order | bracket => exact passes.elim

/-- Such a step brackets its input exactly if its layer does not go with a window below. -/
theorem carried_layers_iff (passes : s.Passes) {grouped : Bool} {layers : List Layer}
    (carried : Layer.Carried grouped layers) {state : ClauseSet}
    (window : state.meets .window = true ↔ Layer.Windowed layers) :
    Layer.Carried grouped (s.layers ++ layers) ↔ s.brackets true state = false := by
  cases s with
  | filter condition =>
    show ¬ Layer.Windowed layers ∧ Layer.Carried grouped layers ↔ state.meets .window = false
    rw [← Bool.not_eq_true, window]
    exact and_iff_left carried
  | project => exact iff_of_true carried rfl
  | take | skip => exact iff_of_true ⟨trivial, carried⟩ rfl
  | group | order | bracket => exact passes.elim

end Step

namespace Body
variable {items : List OrderItem} {grouped : Bool} {layers : List Layer} {body : Body}

theorem Leads.windowed_iff (leads : body.Leads items grouped layers) :
    body.state.meets .window = true ↔ Layer.Windowed layers := by
  have skip : body.state.skip = decide (0 < body.skip) := rfl
  have take : body.state.take = body.take.isSome := rfl
  rw [ClauseSet.meets_window_iff, skip, take, decide_eq_true_iff, leads.skip, leads.take]
  exact or_comm

theorem Leads.extend {s : Step} (passes : s.Passes) (marked : body.Marked)
    (leads : body.Leads items grouped layers) :
    (s.extend true body).Leads items grouped (s.layers ++ layers) where
  order := by
    rw [Step.order_extend_of_passes passes]
    exact leads.order
  skip := (s.skip_extend_of_sum true leads.skip).trans (Step.sumCounts_layers layers).symm
  take := Step.take_extend_of_passes passes leads.take
  group := by
    rw [Step.state_extend s true marked.grouped_eq, Step.group_clauses passes, leads.group]

namespace Buries

/-- A subquery keeps the order of its rows to itself. -/
theorem of_leads (leads : body.Leads items grouped layers) (b : Build) (needs : TokenSet) :
    (b.bracketIf true body needs).1.Buries items := by
  refine ⟨rfl, (b.statement body needs.toList).1, ?_, b.redirects, leads.order.map _⟩
  rw [Build.nested_bracketIf, if_pos rfl]
  exact List.mem_append_left _ (List.mem_singleton_self _)

theorem bracketIf (buries : body.Buries items) (b : Build) (applies : Bool) (needs : TokenSet) :
    (b.bracketIf applies body needs).1.Buries items := by
  obtain ⟨none, s, nested, led⟩ := buries
  refine ⟨?_, s, ?_, led⟩
  · cases applies with
    | false => exact none
    | true => rfl
  · rw [Build.nested_bracketIf]
    exact List.mem_append_right _ nested

theorem extend {s : Step} (passes : s.Passes) (buries : body.Buries items) :
    (s.extend true body).Buries items := by
  rw [Buries, Step.order_extend_of_passes passes, Step.nested_extend]
  exact buries

theorem join (buries : body.Buries items) (other : Body) (kind : JoinKind) (condition : Fragment) :
    (body.join other kind condition).Buries items := by
  obtain ⟨none, s, nested, led⟩ := buries
  refine ⟨none, s, ?_, led⟩
  rw [nested_join]
  exact List.mem_append_left _ nested

end Buries

/-- A step either lets the order through, or it brackets the rows with their order. -/
theorem Follows.extend {s : Step} (passes : s.Passes) (marked : body.Marked)
    (follows : body.Follows items grouped layers) (b : Build) (needs : TokenSet) :
    (s.extend true (b.bracketIf (s.brackets true body.state) body needs).1).Follows items grouped
      (s.layers ++ layers) := by
  by_cases carried : Layer.Carried grouped layers
  · have leads := follows.leads carried
    have through := Step.carried_layers_iff passes carried leads.windowed_iff
    cases brackets : s.brackets true body.state with
    | false =>
      exact ⟨fun _ => leads.extend passes marked, fun lost => absurd (through.2 brackets) lost⟩
    | true =>
      exact ⟨fun all => absurd (brackets.symm.trans (through.1 all)) nofun,
        fun _ => (Buries.of_leads leads b needs).extend passes⟩
  · exact ⟨fun all => absurd all.of_append carried,
      fun _ => ((follows.buries carried).bracketIf b _ needs).extend passes⟩

theorem Marked.meets_aggregate_iff (marked : body.Marked) :
    body.state.meets .aggregate = true ↔
      body.state.group = true ∨ body.state.meets .window = true := by
  have having : body.state.having = true → body.state.group = true := by
    intro some
    rw [← marked.grouped_eq]
    exact marked (.inl (by simpa [state] using some))
  rw [ClauseSet.meets_window_iff]
  simp only [ClauseSet.meets, ClauseSet.aggregate, ClauseSet.window, Bool.and_true, Bool.and_false,
    Bool.false_or, Bool.or_false, Bool.or_eq_true]
  constructor
  · rintro (((group | some) | skip) | take)
    · exact .inl group
    · exact .inl (having some)
    · exact .inr (.inl skip)
    · exact .inr (.inr take)
  · rintro (group | skip | take)
    · exact .inl (.inl (.inl group))
    · exact .inl (.inr skip)
    · exact .inr take

/-- A join that is made lets the order of its base through, or it brackets the base. -/
theorem Follows.join (marked : body.Marked) (follows : body.Follows items grouped layers)
    (b : Build) (needs : TokenSet) (other : Body) (kind : JoinKind) (condition : Fragment) :
    ((b.bracketIf (body.state.meets JoinMode.blockersOfBase) body needs).1.join other kind
      condition).Follows items grouped (.join :: layers) := by
  by_cases carried : Layer.Carried grouped layers
  · have leads := follows.leads carried
    have blocked : body.state.meets JoinMode.blockersOfBase = true ↔
        grouped = true ∨ Layer.Windowed layers := by
      rw [← leads.group, ← leads.windowed_iff]
      exact marked.meets_aggregate_iff
    have through : Layer.Carried grouped (.join :: layers) ↔
        ¬ body.state.meets JoinMode.blockersOfBase = true := by
      rw [blocked, not_or, Bool.not_eq_true, and_comm]
      exact and_iff_left carried
    cases brackets : body.state.meets JoinMode.blockersOfBase with
    | false =>
      -- a body that blocks no join has no groups and no window, and the join adds none
      have ungrouped : grouped = false := by
        have none := mt blocked.2 (by simp [brackets])
        exact Bool.eq_false_iff.2 fun some => none (.inl some)
      refine ⟨fun _ => ⟨leads.order, ?skip, ?take, ungrouped.symm⟩, fun lost => ?lost⟩
      case skip => exact leads.skip.trans (sumCounts_zero_cons _).symm
      case take => exact leads.take.trans (by simp)
      case lost => exact absurd (through.2 (by simp [brackets])) lost
    | true =>
      exact ⟨fun all => absurd brackets (through.1 all),
        fun _ => (Buries.of_leads leads b needs).join other kind condition⟩
  · exact ⟨fun all => absurd all.2 carried,
      fun _ => ((follows.buries carried).bracketIf b _ needs).join other kind condition⟩

end Body

namespace View
open Body (Follows)

/-- The body of an ordered view has the order first, and no window. -/
theorem follows_order (v : View) (items : List OrderItem) (used : TokenSet) (b : Build) :
    let body := (((View.order v items).body used true).run b).1
    body.Follows items body.state.group [] := by
  intro body
  let s : Step := .order items
  let needs := s.needs true v.scope used
  let below := (v.body needs true).run b
  let room := ((below.2.noted s.label below.1.state).bracketIf
    (below.1.state.meets Clause.order.blockers) below.1 needs).1
  have made : body = room.addOrder items := by
    have run := run_body_onto v s used true b
    simp only [Build.run_makeRoom] at run
    exact congrArg Prod.fst run
  have clear : room.state.meets .window = false := Build.clear_bracketIf _ _ _ _
  have window : ¬ (room.state.skip = true ∨ room.state.take = true) := by
    rw [← ClauseSet.meets_window_iff, clear]
    exact Bool.false_ne_true
  refine ⟨fun _ => ?leads, fun lost => absurd trivial lost⟩
  rw [made]
  exact
    { order := List.prefix_append items room.order
      skip := Nat.eq_zero_of_not_pos fun some => window (.inl (decide_eq_true some))
      take := iff_of_false (fun some => window (.inr some)) List.not_mem_nil
      group := rfl }

/-- The order is let through to the body exactly if the layers above it allow that. -/
theorem Context.follows_fill (v : View) (items : List OrderItem) (c : Context) (passes : c.Passes)
    (used : TokenSet) (b : Build) :
    ∃ visit, c.reached (.order v items) used true b = some visit ∧
      (((c.fill (.order v items)).body used true).run b).1.Follows items visit.body.state.group
        (c.layers (.order v items) used) := by
  induction c generalizing used b with
  | here => exact ⟨_, rfl, v.follows_order items used b⟩
  | onto s inner ih =>
    obtain ⟨step, below⟩ := passes
    obtain ⟨visit, reached, follows⟩ :=
      ih below (s.needs true (inner.fill (.order v items)).scope used) b
    refine ⟨visit, ?_, ?_⟩
    · simp only [Context.reached, Step.observes_true]
      exact reached
    · rw [Context.fill, run_body_onto]
      simp only [Build.run_makeRoom, Step.observes_true]
      exact follows.extend step (marked_body _ _ _ _) _ _
  | inBase inner extra mode withNull condition ih =>
    by_cases drops : extra.dropsExtra mode used
    · obtain ⟨visit, reached, follows⟩ :=
        ih passes (used.narrow (inner.fill (.order v items)).scope) b
      refine ⟨visit, (if_pos drops).trans reached, ?_⟩
      simp only [Context.fill, Context.layers, run_body_of_dropsExtra b drops, if_pos drops]
      exact follows
    · -- the order of the rows is observed, so a join that is made has its base
      have keeps : ¬ (inner.fill (.order v items)).dropsBase mode withNull true used :=
        fun leaves => absurd leaves.2.2.1 (by simp)
      obtain ⟨visit, reached, follows⟩ :=
        ih passes ((inner.fill (.order v items)).joinNeeds condition used) b
      refine ⟨visit, (if_neg drops).trans ((if_neg keeps).trans reached), ?_⟩
      simp only [Context.fill, Context.layers, run_body_of_joins b ⟨drops, keeps⟩, run_sides,
        if_neg drops]
      exact follows.join (marked_body _ _ _ _) _ _ _ _ _
  | inExtra => exact passes.elim

/-- An order leads the outermost ORDER BY, whatever conditions, projections, windows and joins are
put on the view, exactly if neither a condition nor a join that is made comes above a window, and no
such join comes above groups that share the SELECT with the order. Otherwise the order has stayed in
a subquery, and the outermost SELECT has none. Where tokens keep to their places, the leading items
are read from the sources of that SELECT. -/
theorem order_plan_fill (v : View) (items : List OrderItem) {c : Context} (passes : c.Passes)
    (settings : Settings) (supply : Supply) :
    let w := c.fill (.order v items)
    let used := w.template.tokenSet
    let start : Build := { settings, supply }
    let redirects := ((w.body used true).run start).2.redirects
    let leading := items.map (SortKey.map redirects.expand)
    let outer := ((w.plan settings).run supply).1.statement.body
    ∃ visit, c.reached (.order v items) used true start = some visit ∧
      let carried := Layer.Carried visit.body.state.group (c.layers (.order v items) used)
      (carried → leading <+: outer.order) ∧ (¬ carried → outer.Buries items) ∧
        (carried → w.Legal → w.Tidy → ∀ definitions,
          w.AllTokens (Token.IssuedBy definitions supply) →
            ∀ item ∈ leading, item.expr.ReadsOnly outer.sources) := by
  intro w used start redirects leading outer
  obtain ⟨visit, reached, follows⟩ := c.follows_fill v items passes used start
  have expanded : outer = ((w.body used true).run start).1.expanded redirects := rfl
  have leads : Layer.Carried visit.body.state.group (c.layers (.order v items) used) →
      leading <+: outer.order := fun carried => (follows.leads carried).order.map _
  refine ⟨visit, reached, leads, fun lost => ?_, ?_⟩
  · obtain ⟨none, s, nested, led⟩ := follows.buries lost
    refine ⟨congrArg (List.map (SortKey.map redirects.expand)) none, s, ?_, led⟩
    rw [expanded, Body.nested_expanded]
    exact nested
  · intro carried legal tidy definitions issued item member
    have sound : outer.WellScoped :=
      (Statement.wellScoped_iff.1 (wellScoped_of_tidy legal tidy issued settings)).1
    exact sound.2.2 item.expr
      (List.mem_append_right _ (List.mem_map_of_mem ((leads carried).subset member)))

def byAmount : List OrderItem := [⟨amount.toFragment, .ascending, none⟩]

def largeOfFive : List Step := [.take 5, .filter (amount.toFragment ++ Fragment.verbatim " > 3")]

/-- The condition stands on the first five, so these become a subquery with their order. -/
theorem unordered_of_window :
    ∃ sorted large, orders.ordered byAmount = .ok sorted ∧
      sorted.applyAll largeOfFive = .ok large ∧ byAmount ≠ [] ∧
        ((large.plan {}).run { tokens := 1, aliases := 1 }).1.statement.body.order = [] := by
  refine ⟨_, _, rfl, rfl, nofun, ?_⟩
  rfl

def latestFirst : List OrderItem := [⟨ownerId.toFragment, .descending, some .last⟩]

def notFirst : Step := .filter (ownerId.toFragment ++ Fragment.verbatim " > 1")

/-- Three of the owners with their pets, all but the first owner. -/
def threeWithPets : Context :=
  .onto (.take 3) (.inBase (.onto notFirst .here) pets .left true ownedBy)

theorem order_plan_fill_owners :
    let w := threeWithPets.fill (.order owners latestFirst)
    let outer := ((w.plan {}).run { tokens := 2, aliases := 2 }).1.statement.body
    (∃ sorted others joined, owners.ordered latestFirst = .ok sorted ∧
      sorted.apply notFirst = .ok others ∧ others.joined pets .left true ownedBy = .ok joined ∧
        joined.apply (.take 3) = .ok w) ∧ threeWithPets.Passes ∧ w.Legal ∧ w.Tidy ∧
      ∃ item rest, outer.order = item :: rest ∧ item.direction = .descending ∧
        item.expr.ReadsOnly outer.sources := by
  intro w outer
  have calls : ∃ sorted others joined, owners.ordered latestFirst = .ok sorted ∧
      sorted.apply notFirst = .ok others ∧ others.joined pets .left true ownedBy = .ok joined ∧
        joined.apply (.take 3) = .ok w := ⟨_, _, _, rfl, rfl, rfl, rfl⟩
  have legal : w.Legal := by
    obtain ⟨sorted, others, joined, ordered, filtered, onPets, taken⟩ := calls
    have ofOwners : owners.Legal := by simp [owners, Legal, ownerId]
    have ofPets : pets.Legal := by simp [pets, Legal, petOwner]
    have ofSorted : sorted.Legal := ofOwners.apply (s := .order latestFirst) ordered
    exact ((ofSorted.apply filtered).joined ofPets onPets).apply taken
  have tidy : w.Tidy := by decide
  have passes : threeWithPets.Passes := ⟨trivial, trivial, trivial⟩
  have issued : w.AllTokens (Token.IssuedBy petDefinitions { tokens := 2, aliases := 2 }) := by
    have id : ownerId.AllTokens (Token.IssuedBy petDefinitions { tokens := 2, aliases := 2 }) :=
      ⟨⟨rfl, by decide, by decide⟩, trivial, trivial⟩
    have owner : petOwner.AllTokens (Token.IssuedBy petDefinitions { tokens := 2, aliases := 2 }) :=
      ⟨⟨rfl, by decide, by decide⟩, trivial, trivial⟩
    simp [w, threeWithPets, Context.fill, Step.onto, notFirst, latestFirst, owners, pets, ownedBy,
      AllTokens, Step.AllTokens, Step.fragments, Template.AllTokens, Fragment.verbatim,
      Fragment.allTokens_toFragment, Fragment.AllTokens, Segment.AllTokens, id, owner]
  obtain ⟨visit, reached, leads, -, reads⟩ :=
    order_plan_fill owners latestFirst passes {} { tokens := 2, aliases := 2 }
  have ungrouped : visit.body.state.group = false := by
    obtain rfl := Option.some.inj reached
    rfl
  have layers : threeWithPets.layers (.order owners latestFirst) w.template.tokenSet =
      [.take, .join, .condition] := rfl
  have carried : Layer.Carried visit.body.state.group
      (threeWithPets.layers (.order owners latestFirst) w.template.tokenSet) := by
    rw [ungrouped, layers]
    decide
  obtain ⟨rest, order⟩ := leads carried
  exact ⟨calls, passes, legal, tidy, _, rest, order.symm, rfl,
    reads carried legal tidy petDefinitions issued _ (List.mem_singleton_self _)⟩

end View
end QueryViews
