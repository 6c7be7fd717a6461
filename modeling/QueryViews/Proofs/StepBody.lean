import QueryViews.Proofs.Steps
import QueryViews.View.Compile

/-! Building above one input, the same way for every step: narrow the needs, build the input,
bracket its body if the step cannot be put above the clauses it carries, and extend the body. -/

namespace QueryViews

/-- All the rows counted. -/
def totalCount : List Nat → Nat
  | [] => 0
  | count :: rest => count + totalCount rest

theorem le_totalCount {counts : List Nat} {count : Nat} (member : count ∈ counts) :
    count ≤ totalCount counts := by
  induction member with
  | head => exact Nat.le_add_right _ _
  | tail _ _ ih => exact Nat.le_add_left_of_le ih

/-- What a 64-bit register holds once the counts have been added up in it. -/
def sumCounts (counts : List Nat) : Nat := totalCount counts % Text.registerBound

@[simp] theorem sumCounts_zero_cons (counts : List Nat) :
    sumCounts (0 :: counts) = sumCounts counts := by
  rw [sumCounts, totalCount, Nat.zero_add, sumCounts]

theorem addCounts_sumCounts (counts : List Nat) (count : Nat) :
    addCounts (sumCounts counts) count = sumCounts (count :: counts) := by
  rw [addCounts, sumCounts, sumCounts, Nat.mod_add_mod, totalCount, Nat.add_comm]

namespace Step

/-- Tokens that the step itself reads when its body is built. -/
def reads (observed : Bool) : Step → List Token
  | .filter condition => condition.tokens
  | .group keys _ => keys.tokens
  | .order items => if observed then items.flatMap (·.expr.tokens) else []
  | .project _ | .take _ | .skip _ | .bracket _ => []

/-- What the input has to provide. -/
def needs (s : Step) (observed : Bool) (scope : Scope) (used : TokenSet) : TokenSet :=
  (used.insertAll (s.reads observed)).narrow scope

/-- Whether the order of the input's rows can be observed. -/
def observes (observed : Bool) : Step → Bool
  | .take _ | .skip _ => true
  | .filter _ | .project _ | .group _ _ | .order _ | .bracket _ => observed

@[simp] theorem observes_true (s : Step) : s.observes true = true := by
  cases s with
  | filter | project | group | order | take | skip | bracket => rfl

/-- Whether the body of the input becomes a subquery. -/
def brackets (observed : Bool) (state : ClauseSet) : Step → Bool
  | .filter _ => state.meets Clause.filter.blockers
  | .group _ _ => state.meets Clause.group.blockers
  | .order _ => observed && state.meets Clause.order.blockers
  | .bracket point => point.applies state
  | .project _ | .take _ | .skip _ => false

def label : Step → Option String
  | .bracket point => point.label
  | .filter _ | .project _ | .group _ _ | .order _ | .take _ | .skip _ => none

/-- What the step adds to a body. -/
def extend (observed : Bool) (b : Body) : Step → Body
  | .filter condition => b.addCondition condition
  | .group keys _ => b.groupBy (keys.tokens.map Token.toFragment)
  | .order items => if observed then b.addOrder items else b
  | .take count => b.addTake count
  | .skip count => b.addSkip count
  | .project _ | .bracket _ => b

def skips : Step → Nat
  | .skip count => count
  | .filter _ | .project _ | .group _ _ | .order _ | .take _ | .bracket _ => 0

/-- How many rows are skipped after the step, from how many before. -/
def skipped (before : Nat) : Step → Nat
  | .skip count => addCounts before count
  | .filter _ | .project _ | .group _ _ | .order _ | .take _ | .bracket _ => before

/-- The step does not overflow the number of rows skipped. -/
def HasRoom (before : Nat) : Step → Prop
  | .skip count => before + count < Text.registerBound
  | .filter _ | .project _ | .group _ _ | .order _ | .take _ | .bracket _ => True

instance (before : Nat) : (s : Step) → Decidable (s.HasRoom before)
  | .skip count => inferInstanceAs (Decidable (before + count < Text.registerBound))
  | .filter _ | .project _ | .group _ _ | .order _ | .take _ | .bracket _ =>
    inferInstanceAs (Decidable True)

/-- The clauses after the step, from those before and the rows skipped before. -/
def clauses (observed : Bool) (state : ClauseSet) (before : Nat) : Step → ClauseSet
  | .filter _ => if state.group then { state with having := true } else { state with filter := true }
  | .group _ _ => { state with group := true }
  | .order items => { state with order := state.order || observed && !items.isEmpty }
  | .take _ => { state with take := true }
  | .skip count => { state with skip := 0 < addCounts before count }
  | .project _ | .bracket _ => state

/-- The expressions that the step leaves in the body. -/
def written (observed : Bool) : Step → List Fragment
  | .filter condition => [condition]
  | .group keys _ => keys.tokens.map Token.toFragment
  | .order items => if observed then items.map SortKey.expr else []
  | .project _ | .take _ | .skip _ | .bracket _ => []

/-- A grouping replaces the keys of a body, so there must be none. -/
def Fits (state : ClauseSet) : Step → Prop
  | .group _ _ => state.group = false
  | .filter _ | .project _ | .order _ | .take _ | .skip _ | .bracket _ => True

theorem fits_empty (s : Step) : s.Fits {} := by
  cases s with
  | group => rfl
  | filter | project | order | take | skip | bracket => trivial

theorem fits_of_not_brackets {s : Step} {observed : Bool} {state : ClauseSet}
    (clear : s.brackets observed state = false) : s.Fits state := by
  cases s with
  | group keys content =>
    have parts : state.meets .afterRows = false := clear
    cases grouped : state.group with
    | false => exact grouped
    | true => simp [ClauseSet.meets, ClauseSet.afterRows, ClauseSet.aggregate, grouped] at parts
  | filter | project | order | take | skip | bracket => trivial

section Expressions
variable {P : Token → Prop} {s : Step} (observed : Bool)

theorem AllTokens.reads (all : s.AllTokens P) : ∀ t ∈ s.reads observed, t.AllTokens P := by
  intro t member
  cases s with
  | filter condition =>
    exact Fragment.allTokens_iff_tokens.1 (all condition (List.mem_singleton_self _)) t member
  | group keys content => exact all.group.1.tokens t member
  | order items =>
    cases observed with
    | true =>
      obtain ⟨item, listed, inside⟩ := List.mem_flatMap.1 member
      exact Fragment.allTokens_iff_tokens.1 (all item.expr (List.mem_map_of_mem listed)) t inside
    | false => exact absurd member List.not_mem_nil
  | project | take | skip | bracket => exact absurd member List.not_mem_nil

theorem AllTokens.needs (all : s.AllTokens P) {used : TokenSet}
    (ofUsed : ∀ t ∈ used.toList, t.AllTokens P) (scope : Scope) :
    ∀ t ∈ (s.needs observed scope used).toList, t.AllTokens P ∧ scope.contains t.id = true :=
  AscendingSet.mem_narrow fun t member =>
    (AscendingSet.mem_insertAll member).elim (ofUsed t) (all.reads observed t)

theorem mem_fragments_of_written {f : Fragment} (member : f ∈ s.written observed) :
    f ∈ s.fragments := by
  cases s with
  | filter condition => exact member
  | group keys content =>
    obtain ⟨t, listed, rfl⟩ := List.mem_map.1 member
    obtain ⟨c, inside, rfl⟩ := List.mem_map.1 (Token.mem_distinct listed)
    exact List.mem_map_of_mem (List.mem_append_left _ inside)
  | order items =>
    cases observed with
    | true => exact member
    | false => exact absurd member List.not_mem_nil
  | project | take | skip | bracket => exact absurd member List.not_mem_nil

theorem tokens_written {f : Fragment} (member : f ∈ s.written observed) :
    ∀ t ∈ f.tokens, t ∈ s.reads observed := by
  intro t inside
  cases s with
  | filter condition =>
    obtain rfl := List.mem_singleton.1 member
    exact inside
  | group keys content =>
    obtain ⟨u, listed, rfl⟩ := List.mem_map.1 member
    obtain rfl := List.mem_singleton.1 inside
    exact listed
  | order items =>
    cases observed with
    | true =>
      obtain ⟨item, listed, rfl⟩ := List.mem_map.1 member
      exact List.mem_flatMap.2 ⟨item, listed, inside⟩
    | false => exact absurd member List.not_mem_nil
  | project | take | skip | bracket => exact absurd member List.not_mem_nil

end Expressions

section Extend
variable (s : Step) (observed : Bool) (b : Body)

@[simp] theorem source_extend : (s.extend observed b).source = b.source := by
  cases s with
  | filter => rw [extend, Body.addCondition]; split <;> rfl
  | order => rw [extend]; split <;> rfl
  | group | take | skip | project | bracket => rfl

@[simp] theorem joins_extend : (s.extend observed b).joins = b.joins := by
  cases s with
  | filter => rw [extend, Body.addCondition]; split <;> rfl
  | order => rw [extend]; split <;> rfl
  | group | take | skip | project | bracket => rfl

theorem HasRoom.of_le {s : Step} {before less : Nat} (room : s.HasRoom before)
    (le : less ≤ before) : s.HasRoom less := by
  cases s with
  | skip count => exact Nat.lt_of_le_of_lt (Nat.add_le_add_right le count) room
  | filter | project | group | order | take | bracket => trivial

theorem skip_extend : (s.extend observed b).skip = s.skipped b.skip := by
  cases s with
  | filter => rw [extend, Body.addCondition]; split <;> rfl
  | order => rw [extend]; split <;> rfl
  | group | take | skip | project | bracket => rfl

variable {b}

theorem skip_extend_of_sum {counts : List Nat} (sum : b.skip = sumCounts counts) :
    (s.extend observed b).skip = sumCounts (s.skips :: counts) := by
  rw [skip_extend, sum]
  cases s with
  | skip count => exact addCounts_sumCounts counts count
  | filter | group | order | take | project | bracket => exact (sumCounts_zero_cons counts).symm

/-- What a body is grouped by is only there if it is grouped. -/
theorem state_extend (same : b.grouped = b.state.group) :
    (s.extend observed b).state = s.clauses observed b.state b.skip := by
  cases s with
  | filter condition =>
    rw [extend, Body.addCondition, clauses, same]
    split
    · simp [Body.state]
    · simp [Body.state]
  | group | take | project | bracket => rfl
  | order items =>
    cases observed with
    | true =>
      have some : (!(items ++ b.order).isEmpty) = (!b.order.isEmpty || !items.isEmpty) := by
        cases items with
        | nil => simp
        | cons => simp
      simp only [extend, Body.addOrder, Body.state, clauses, some, Bool.true_and, if_true]
    | false => simp [extend, clauses]
  | skip count =>
    show ClauseSet.mk _ _ _ _ _ _ _ (b.take.map (· - count)).isSome = _
    rw [Option.isSome_map]
    rfl

theorem grouped_extend (same : b.grouped = b.state.group) :
    (s.extend observed b).grouped = (s.extend observed b).state.group := by
  cases s with
  | filter =>
    rw [extend, Body.addCondition]
    split
    · exact same
    · exact same
  | order =>
    cases observed with
    | true => exact same
    | false => exact same
  | take | skip | project | bracket => exact same
  | group => rfl

theorem keys_eq_nil (ungrouped : b.state.group = false) : b.keys = [] := by
  have parts := (Bool.or_eq_false_iff.1 ungrouped).2
  simpa using parts

end Extend

end Step

namespace Building

/-- Makes room for a step above a body. -/
def makeRoom (s : Step) (observed : Bool) (body : Body) (needs : TokenSet) : Building Body := do
  if ← decide s.label body.state (s.brackets observed body.state) then bracket body needs
  else return body

theorem makeRoom_of_unlabelled {s : Step} (observed : Bool) (body : Body) (needs : TokenSet)
    (unlabelled : s.label = none) :
    makeRoom s observed body needs =
      if s.brackets observed body.state then bracket body needs else return body := by
  rw [makeRoom, unlabelled]
  exact pure_bind _ _

end Building

theorem View.body_onto (v : View) (s : Step) (used : TokenSet) (observed : Bool) :
    (s.onto v).body used observed = do
      let needs := s.needs observed v.scope used
      let b ← v.body needs (s.observes observed)
      return s.extend observed (← Building.makeRoom s observed b needs) := by
  cases s with
  | filter condition =>
    simp only [Building.makeRoom_of_unlabelled (s := .filter condition) _ _ _ rfl]
    rfl
  | project template =>
    simp only [Building.makeRoom_of_unlabelled (s := .project template) _ _ _ rfl]
    exact (bind_pure _).symm
  | group keys content =>
    simp only [Building.makeRoom_of_unlabelled (s := .group keys content) _ _ _ rfl]
    rfl
  | order items =>
    simp only [Building.makeRoom_of_unlabelled (s := .order items) _ _ _ rfl]
    cases observed with
    | true => rfl
    | false => exact (bind_pure _).symm
  | take count =>
    simp only [Building.makeRoom_of_unlabelled (s := .take count) _ _ _ rfl]
    rfl
  | skip count =>
    simp only [Building.makeRoom_of_unlabelled (s := .skip count) _ _ _ rfl]
    rfl
  | bracket point =>
    exact bind_congr fun b => (bind_pure _).symm

end QueryViews
