import Mathlib.Algebra.BigOperators.Group.List.Basic
import QueryViews.Proofs.Clauses.Visits

/-! Clauses counted: each visited step puts its clauses into one of the SELECTs of the body, and
nothing else does. A join drops what comes after the rows of its sides, but a side that carries any
of it has been closed off before. -/

namespace QueryViews

/-- How many clauses of each kind there are. -/
@[ext] structure Tally where
  conditions : Nat := 0
  joins : Nat := 0
  groups : Nat := 0
  items : Nat := 0
deriving DecidableEq, Repr

namespace Tally

instance : Zero Tally := ⟨{}⟩

instance : Add Tally where
  add s t := ⟨s.conditions + t.conditions, s.joins + t.joins, s.groups + t.groups,
    s.items + t.items⟩

section
variable (s t : Tally)

@[simp] theorem conditions_add : (s + t).conditions = s.conditions + t.conditions := rfl

@[simp] theorem joins_add : (s + t).joins = s.joins + t.joins := rfl

@[simp] theorem groups_add : (s + t).groups = s.groups + t.groups := rfl

@[simp] theorem items_add : (s + t).items = s.items + t.items := rfl

end

instance : AddCommMonoid Tally where
  add_assoc s t u := by ext <;> exact Nat.add_assoc _ _ _
  zero_add s := by ext <;> exact Nat.zero_add _
  add_zero s := by ext <;> exact Nat.add_zero _
  add_comm s t := by ext <;> exact Nat.add_comm _ _
  nsmul := nsmulRec

end Tally

/-- The clauses of the body, without those of its subqueries. -/
def Body.tally (b : Body) : Tally where
  conditions := b.filters.length + b.having.length
  joins := b.joins.length
  groups := b.grouped.toNat
  items := b.order.length

/-- The clauses that the visited step or join is there for. -/
def Visit.tally (visit : Visit) : Tally :=
  match visit.view with
  | .filter _ _ => { conditions := 1 }
  | .join base extra mode withNull _ =>
    if View.Joins base extra mode withNull visit.used visit.observed then { joins := 1 } else 0
  | .group _ _ _ => { groups := 1 }
  | .order _ items => if visit.observed then { items := items.length } else 0
  | .table _ _ _ | .project _ _ | .take _ _ | .skip _ _ | .bracket _ _ => 0

namespace Body

/-- Nothing of an aggregation. -/
structure Ungrouped (b : Body) : Prop where
  keys : b.keys = []
  grouped : b.grouped = false
  having : b.having = []

/-- Nothing but sources, joins and conditions on rows. -/
structure Bare (b : Body) : Prop extends Ungrouped b where
  order : b.order = []
  skip : b.skip = 0
  take : b.take = none

variable {b : Body}

theorem Ungrouped.of_clear (clear : b.state.meets .aggregate = false) : b.Ungrouped := by
  simp only [ClauseSet.meets, ClauseSet.aggregate, ClauseSet.window, state, Bool.and_true,
    Bool.and_false, Bool.false_or, Bool.or_false, Bool.or_eq_false_iff] at clear
  obtain ⟨⟨⟨⟨grouped, keys⟩, having⟩, -⟩, -⟩ := clear
  exact ⟨by simpa using keys, grouped, by simpa using having⟩

theorem Bare.of_clear (clear : b.state.meets .afterRows = false) : b.Bare := by
  simp only [ClauseSet.meets, ClauseSet.afterRows, ClauseSet.aggregate, ClauseSet.window, state,
    Bool.and_true, Bool.and_false, Bool.false_or, Bool.or_eq_false_iff] at clear
  obtain ⟨⟨⟨⟨⟨grouped, keys⟩, having⟩, order⟩, skip⟩, take⟩ := clear
  refine ⟨⟨by simpa using keys, grouped, by simpa using having⟩, by simpa using order, ?_, ?_⟩
  · simpa using skip
  · simpa using take

end Body

/-- A body that carries none of some clauses carries none of fewer. -/
theorem ClauseSet.clear_of_le {state small large : ClauseSet}
    (le : ∀ pair ∈ small.toList.zip large.toList, pair.1 ≤ pair.2)
    (clear : state.meets large = false) : state.meets small = false := by
  have step : ∀ {flag one other : Bool}, one ≤ other → (flag && other) = false →
      (flag && one) = false := by decide
  simp only [toList, List.zip_cons_cons, List.zip_nil_right, List.forall_mem_cons] at le
  simp only [meets, Bool.or_eq_false_iff] at clear ⊢
  obtain ⟨l1, l2, l3, l4, l5, l6, l7, l8, -⟩ := le
  obtain ⟨⟨⟨⟨⟨⟨⟨c1, c2⟩, c3⟩, c4⟩, c5⟩, c6⟩, c7⟩, c8⟩ := clear
  exact ⟨⟨⟨⟨⟨⟨⟨step l1 c1, step l2 c2⟩, step l3 c3⟩, step l4 c4⟩, step l5 c5⟩, step l6 c6⟩,
    step l7 c7⟩, step l8 c8⟩

theorem JoinMode.clear_afterRows {mode : JoinMode} {policy : JoinPolicy} {state : ClauseSet}
    (clear : state.meets (mode.blockersOfExtra policy) = false) :
    state.meets .afterRows = false := by
  have ofAll : state.meets .all = false → state.meets .afterRows = false :=
    ClauseSet.clear_of_le (by decide)
  cases mode with
  | left | lazy => exact ofAll clear
  | inner =>
    cases policy with
    | strict => exact ofAll clear
    | relaxed => exact clear

/-- A body that carries a blocking clause is closed off, and then it carries none. -/
theorem Build.clear_bracketIf (b : Build) (body : Body) (blockers : ClauseSet) (needs : TokenSet) :
    (b.bracketIf (body.state.meets blockers) body needs).1.state.meets blockers = false := by
  cases blocked : body.state.meets blockers with
  | false => exact blocked
  | true => rfl

theorem Step.fits_bracketIf (s : Step) (observed : Bool) (b : Build) (body : Body)
    (needs : TokenSet) :
    s.Fits (b.bracketIf (s.brackets observed body.state) body needs).1.state := by
  cases brackets : s.brackets observed body.state with
  | false => exact fits_of_not_brackets brackets
  | true => exact s.fits_empty

/-- What a join clears of its base or does not take over from its extra side is not there. -/
theorem View.bare_sides (base extra : View) (mode : JoinMode) (condition : Fragment)
    (used : TokenSet) (observed : Bool) (b : Build) :
    let both := ((base.sides extra mode condition used observed).run b).1
    both.1.Ungrouped ∧ both.2.Bare := by
  simp only [run_sides]
  constructor
  · exact .of_clear (Build.clear_bracketIf _ _ _ _)
  · exact .of_clear (JoinMode.clear_afterRows (Build.clear_bracketIf _ _ _ _))

namespace Body

/-- The clauses of the body, with those of its subqueries. -/
def total (b : Body) : Tally := (b.bodies.map tally).sum

theorem total_eq (b : Body) : b.total = b.tally + (b.nested.map fun s => s.body.tally).sum := by
  rw [total, bodies, List.map_cons, List.sum_cons, List.map_map]
  rfl

theorem tally_expanded (r : Redirects) (b : Body) : (b.expanded r).tally = b.tally := by
  simp only [tally, expanded, List.length_map]

theorem total_join {b x : Body} (ofBase : b.Ungrouped) (ofExtra : x.Bare) (kind : JoinKind)
    (condition : Fragment) :
    (b.join x kind condition).total = { joins := 1 } + (b.total + x.total) := by
  have own : (b.join x kind condition).tally = { joins := 1 } + (b.tally + x.tally) := by
    ext
    · simp [tally, join, addJoin, ofBase.having, ofExtra.having]
    · simp [tally, join, addJoin, Nat.add_comm 1, Nat.add_assoc]
    · simp [tally, join, addJoin, ofBase.grouped, ofExtra.grouped]
    · simp [tally, join, addJoin, ofExtra.order]
  rw [total_eq, own, nested_join, List.map_append, List.sum_append, total_eq, total_eq, add_assoc,
    add_add_add_comm]

end Body

/-- A bracket moves clauses into a subquery and adds none. -/
theorem Build.total_bracketIf (b : Build) (applies : Bool) (body : Body) (needs : TokenSet) :
    (b.bracketIf applies body needs).1.total = body.total := by
  cases applies with
  | false => rfl
  | true =>
    have outer : (b.bracketIf true body needs).1.tally = 0 := rfl
    have inner : (b.statement body needs.toList).1.body.tally = body.tally :=
      Body.tally_expanded b.redirects body
    rw [Body.total_eq, outer, nested_bracketIf, if_pos rfl, List.singleton_append, List.map_cons,
      List.sum_cons, inner, zero_add, Body.total_eq]

/-- A step adds its own clauses, unless it groups a body that is grouped already. -/
theorem Step.total_extend {s : Step} {body : Body} (fits : s.Fits body.state) (v : View)
    (used : TokenSet) (observed : Bool) (b : Build) :
    (s.extend observed body).total = Visit.tally ⟨s.onto v, used, observed, b⟩ + body.total := by
  have own : (s.extend observed body).tally =
      Visit.tally ⟨s.onto v, used, observed, b⟩ + body.tally := by
    cases s with
    | filter condition =>
      rw [extend, Body.addCondition]
      split
      · ext <;> simp [Body.tally, Visit.tally, onto, Nat.add_comm 1, Nat.add_assoc]
      · ext <;> simp [Body.tally, Visit.tally, onto, Nat.add_right_comm, Nat.add_comm 1]
    | group keys content =>
      have fresh : body.grouped = false := (Bool.or_eq_false_iff.1 fits).1
      ext <;> simp [Body.tally, Visit.tally, onto, extend, Body.groupBy, fresh]
    | order items =>
      cases observed with
      | true => ext <;> simp [Body.tally, Visit.tally, onto, extend, Body.addOrder]
      | false => exact (zero_add body.tally).symm
    | project | take | skip | bracket => exact (zero_add body.tally).symm
  rw [Body.total_eq, own, nested_extend, add_assoc, ← Body.total_eq]

namespace Body

/-- Keys and conditions on groups stand in a grouped body only. -/
def Marked (b : Body) : Prop := b.having ≠ [] ∨ b.keys ≠ [] → b.grouped = true

variable {b : Body}

theorem Ungrouped.marked (ungrouped : b.Ungrouped) : b.Marked := by
  rintro (having | keys)
  · exact absurd ungrouped.having having
  · exact absurd ungrouped.keys keys

theorem marked_expanded {r : Redirects} (marked : b.Marked) : (b.expanded r).Marked := by
  intro written
  refine marked (written.imp ?_ ?_)
  · exact fun having none => having (congrArg (List.map r.expand) none)
  · exact fun keys none => keys (congrArg (List.map r.expand) none)

theorem Marked.bracketIf (marked : b.Marked) (build : Build) (applies : Bool) (needs : TokenSet) :
    (build.bracketIf applies b needs).1.Marked := by
  cases applies with
  | false => exact marked
  | true => exact Ungrouped.marked ⟨rfl, rfl, rfl⟩

theorem Marked.extend (marked : b.Marked) (s : Step) (observed : Bool) :
    (s.extend observed b).Marked := by
  cases s with
  | filter condition =>
    rw [Step.extend, addCondition]
    split
    next grouped => exact fun _ => grouped
    next => exact marked
  | group keys content => exact fun _ => rfl
  | order items =>
    cases observed with
    | true => exact marked
    | false => exact marked
  | project | take | skip | bracket => exact marked

end Body

namespace View

theorem marked_body (v : View) (used : TokenSet) (observed : Bool) (b : Build) :
    ((v.body used observed).run b).1.Marked := by
  induction v, used, observed, b using visits_induction with
  | table => exact Body.Ungrouped.marked ⟨rfl, rfl, rfl⟩
  | onto s v used observed b ih =>
    simp only [run_body_onto, Build.run_makeRoom]
    exact (ih.bracketIf _ _ _).extend s observed
  | baseOnly base extra mode withNull condition used observed b drops ih =>
    rw [run_body_of_dropsExtra b drops]
    exact ih
  | extraOnly base extra mode withNull condition used observed b keeps drops ih =>
    rw [run_body_of_dropsBase b keeps drops]
    exact ih
  | both base extra mode withNull condition used observed b joins =>
    rw [run_body_of_joins b joins]
    exact Body.Ungrouped.marked ⟨rfl, rfl, rfl⟩

theorem total_body (v : View) (used : TokenSet) (observed : Bool) (b : Build) :
    ((v.body used observed).run b).1.total =
      ((v.visits used observed b).map Visit.tally).sum := by
  induction v, used, observed, b using visits_induction with
  | table => rfl
  | onto s v used observed b ih =>
    simp only [run_body_onto, Build.run_makeRoom, visits_onto, Step.visits, List.map_cons,
      List.sum_cons]
    rw [Step.total_extend (s.fits_bracketIf observed _ _ _) v used observed b,
      Build.total_bracketIf, ih]
  | baseOnly base extra mode withNull condition used observed b drops ih =>
    have own : Visit.tally ⟨.join base extra mode withNull condition, used, observed, b⟩ = 0 :=
      if_neg fun joins => joins.1 drops
    rw [run_body_of_dropsExtra b drops, visits_of_dropsExtra b drops, List.map_cons, List.sum_cons,
      own, zero_add, ih]
  | extraOnly base extra mode withNull condition used observed b keeps drops ih =>
    have own : Visit.tally ⟨.join base extra mode withNull condition, used, observed, b⟩ = 0 :=
      if_neg fun joins => joins.2 drops
    rw [run_body_of_dropsBase b keeps drops, visits_of_dropsBase b keeps drops, List.map_cons,
      List.sum_cons, own, zero_add, ih]
  | both base extra mode withNull condition used observed b joins ofBase ofExtra =>
    have own : Visit.tally ⟨.join base extra mode withNull condition, used, observed, b⟩ =
        { joins := 1 } := if_pos joins
    -- both sides have been closed off where needed, so what the join drops of them is not there
    obtain ⟨baseUngrouped, extraBare⟩ := bare_sides base extra mode condition used observed b
    rw [run_body_of_joins b joins, visits_of_joins b joins, List.map_cons, List.sum_cons, own,
      List.map_append, List.sum_append, ← ofBase, ← ofExtra,
      Body.total_join baseUngrouped extraBare]
    simp only [run_sides, Build.total_bracketIf]

/-- No clause is lost or made twice on the way from a view to its body. Over the body and all
SELECTs nested in it there are as many conditions, joins, groupings and order items as the visited
steps ask for, keys and conditions on groups stand in grouped bodies only, and a join that is made
takes over all that its sides consist of. -/
theorem clauses_of_visits (v : View) (used : TokenSet) (observed : Bool) (b : Build) :
    let built := ((v.body used observed).run b).1
    (built.bodies.map Body.tally).sum = ((v.visits used observed b).map Visit.tally).sum ∧
      (∀ body ∈ built.bodies, body.having ≠ [] ∨ body.keys ≠ [] → body.grouped = true) ∧
      ∀ visit ∈ v.visits used observed b, ∀ base extra mode withNull condition,
        visit.view = .join base extra mode withNull condition →
        Joins base extra mode withNull visit.used visit.observed →
          let sides :=
            ((base.sides extra mode condition visit.used visit.observed).run visit.build).1
          visit.body = sides.1.join sides.2 mode.kind condition ∧ sides.1.Ungrouped ∧
            sides.2.Bare := by
  intro built
  refine ⟨total_body v used observed b, List.forall_mem_cons.2 ⟨marked_body _ _ _ _, ?_⟩, ?_⟩
  · intro body member
    obtain ⟨s, nested, rfl⟩ := List.mem_map.1 member
    obtain ⟨visit, -, later, rfl⟩ := madeOn_of_mem_nested v used observed b s nested
    exact Body.marked_expanded (marked_body visit.view visit.used visit.observed visit.build)
  · intro visit _ base extra mode withNull condition view joins sides
    obtain ⟨_, used, observed, build⟩ := visit
    obtain rfl := view
    exact ⟨congrArg Prod.fst (run_body_of_joins build joins),
      bare_sides base extra mode condition used observed build⟩

end View
end QueryViews
